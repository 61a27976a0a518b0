import Nanos6.Coverage.Taskwaits

/-!
# Steps that keep the coverage

What a task does besides the matching of accesses: it is submitted, goes on in
its life, waits, leaves its taskwaits and is deleted.  The end of a taskwait
clears its fragments, its taskwait fragments and its bottom map.
-/

namespace Nanos6

open Foundation

/-! ## The end of a taskwait -/

/-- `handleExitTaskwait` for `task`, and changes of the control. -/
structure Exits (system next : System) (task : TaskId) : Prop where
  objects : ∀ other, other ≠ task →
    (next.task other).objects = (system.task other).objects
  bottomMaps : ∀ other, other ≠ task →
    (next.task other).subaccessBottomMap =
      (system.task other).subaccessBottomMap
  bottomMap : (next.task task).subaccessBottomMap = .empty
  cleared : (system.task task).hasAccesses = true →
    ((next.task task).objects .accesses =
      ((system.task task).objects .accesses).mapValues fun access =>
        { access with hasSubaccesses := false }) ∧
      ∀ map, map ≠ .accesses → (next.task task).objects map = .empty
  untouched : (system.task task).hasAccesses = false →
    (next.task task).objects = (system.task task).objects
  updates : ∀ other,
    next.updatesBottomMap other = system.updatesBottomMap other

theorem exits_handleExitTaskwait (system : System) (task : TaskId) :
    Exits system (handleExitTaskwait system task) task := by
  have others : ∀ other, other ≠ task →
      (handleExitTaskwait system task).task other = system.task other :=
    fun other differ => Balanced.task_handleExitTaskwait_of_ne system differ
  refine ⟨?_, ?_, ?_, ?_, ?_, ?_⟩
  · intro other differ
    rw [others other differ]
  · intro other differ
    rw [others other differ]
  · unfold handleExitTaskwait
    dsimp only
    split <;> rw [System.task_modifyTask, if_pos rfl]
  · intro accesses
    unfold handleExitTaskwait
    dsimp only
    rw [if_pos accesses, System.task_modifyTask, if_pos rfl]
    refine ⟨rfl, ?_⟩
    intro map differ
    cases map with
    | accesses => exact absurd rfl differ
    | accessFragments => rfl
    | taskwaitFragments => rfl
  · intro accesses
    unfold handleExitTaskwait
    dsimp only
    rw [if_neg (by rw [accesses]; simp), System.task_modifyTask, if_pos rfl]
  · intro other
    unfold handleExitTaskwait
    dsimp only
    split <;> rfl

namespace Exits

variable {system next : System} {task : TaskId}

/-- Only the objects of the tasks and the bottom-map updates matter. -/
theorem congr (exits : Exits system next task) {before after : System}
    (objectsBefore : ∀ other,
      (system.task other).objects = (before.task other).objects)
    (bottomMapsBefore : ∀ other,
      (system.task other).subaccessBottomMap =
        (before.task other).subaccessBottomMap)
    (updatesBefore : ∀ other,
      system.updatesBottomMap other = before.updatesBottomMap other)
    (objectsAfter : ∀ other,
      (after.task other).objects = (next.task other).objects)
    (bottomMapsAfter : ∀ other,
      (after.task other).subaccessBottomMap =
        (next.task other).subaccessBottomMap)
    (updatesAfter : ∀ other,
      after.updatesBottomMap other = next.updatesBottomMap other) :
    Exits before after task := by
  have accesses : (system.task task).hasAccesses =
      (before.task task).hasAccesses := by
    simp only [Task.hasAccesses, objectsBefore]
  refine ⟨?_, ?_, ?_, ?_, ?_, ?_⟩
  · intro other differ
    rw [objectsAfter, exits.objects other differ, objectsBefore]
  · intro other differ
    rw [bottomMapsAfter, exits.bottomMaps other differ, bottomMapsBefore]
  · rw [bottomMapsAfter, exits.bottomMap]
  · intro some
    rw [objectsAfter, ← objectsBefore]
    exact exits.cleared (accesses.trans some)
  · intro none
    rw [objectsAfter, ← objectsBefore]
    exact exits.untouched (accesses.trans none)
  · intro other
    rw [updatesAfter, exits.updates, updatesBefore]

theorem hasAccesses (exits : Exits system next task) (other : TaskId) :
    (next.task other).hasAccesses = (system.task other).hasAccesses := by
  by_cases same : other = task
  · subst same
    cases accesses : (system.task other).hasAccesses with
    | false =>
        simp only [Task.hasAccesses, exits.untouched accesses] at accesses ⊢
        exact accesses
    | true =>
        have before := accesses
        simp only [Task.hasAccesses, (exits.cleared before).1,
          Bool.not_eq_true', List.isEmpty_eq_false_iff] at accesses ⊢
        obtain ⟨piece, member⟩ := List.exists_mem_of_ne_nil _ accesses
        exact List.ne_nil_of_mem
          ((IntervalMap.mem_mapValues _).mpr ⟨piece, member, rfl⟩)
  · simp only [Task.hasAccesses, exits.objects other same]

/-- Without accesses there are no fragments. -/
theorem footprint (exits : Exits system next task)
    (aligned : ∀ address,
      ((system.task task).footprint address).Aligned) (address : Nat) :
    ((next.task task).footprint address).access =
        ((system.task task).footprint address).access.map
          (fun shape => (shape.1, false)) ∧
      ((next.task task).footprint address).hasFragment = false ∧
      ((next.task task).footprint address).entry = none ∧
      ((system.task task).hasAccesses = true →
        ((next.task task).footprint address).hasTaskwait = false) := by
  have entry : ((next.task task).footprint address).entry = none := by
    simp only [Task.footprint, exits.bottomMap]
    rfl
  cases accesses : (system.task task).hasAccesses with
  | false =>
      have absent : ((system.task task).footprint address).access = none := by
        simp only [Task.hasAccesses, Bool.not_eq_false',
          List.isEmpty_iff] at accesses
        simp [Task.footprint, IntervalMap.lookup, accesses]
      have fragment := aligned address
      unfold Footprint.Aligned at fragment
      rw [absent] at fragment
      have same : ∀ map, (next.task task).objects map =
          (system.task task).objects map :=
        fun map => congrFun (exits.untouched accesses) map
      refine ⟨?_, ?_, entry, fun some => by cases some⟩
      · rw [absent]
        simp only [Task.footprint, same] at absent ⊢
        exact absent
      · simp only [Task.footprint, same] at fragment ⊢
        exact fragment
  | true =>
      obtain ⟨cleared, empty⟩ := exits.cleared accesses
      refine ⟨?_, ?_, entry, fun _ => ?_⟩
      · simp only [Task.footprint, cleared, IntervalMap.lookup_mapValues,
          Option.map_map]
        rfl
      · simp only [Task.footprint, empty .accessFragments (by simp)]
        rfl
      · simp only [Task.footprint, empty .taskwaitFragments (by simp)]
        rfl

end Exits

/-- `completeDelayedRelease`, also after a change of the control and the
counters of the task. -/
theorem exits_completeDelayedRelease {before system : System}
    {task : TaskId}
    (objects : ∀ other,
      (system.task other).objects = (before.task other).objects)
    (bottomMaps : ∀ other, (system.task other).subaccessBottomMap =
      (before.task other).subaccessBottomMap)
    (updates : ∀ other,
      system.updatesBottomMap other = before.updatesBottomMap other) :
    Exits before (completeDelayedRelease system task) task := by
  refine (exits_handleExitTaskwait
    (system.modifyTask task fun current =>
      { current with mustDelayRelease := false }) task).congr ?_ ?_ updates
    ?_ ?_ fun _ => rfl
  · intro other
    rw [System.task_modifyTask, ← objects]
    split
    · rename_i same
      rw [same]
    · rfl
  · intro other
    rw [System.task_modifyTask, ← bottomMaps]
    split
    · rename_i same
      rw [same]
    · rfl
  · intro other
    unfold completeDelayedRelease
    dsimp only
    rw [System.task_modifyTask]
    split
    · rename_i same
      rw [same]
    · rfl
  · intro other
    unfold completeDelayedRelease
    dsimp only
    rw [System.task_modifyTask]
    split
    · rename_i same
      rw [same]
    · rfl

theorem exits_exitTaskwait (system : System) (task : TaskId)
    (rest : List Work) :
    Exits system (exitTaskwait system task rest) task := by
  refine (exits_handleExitTaskwait
    (system.modifyTask task fun current =>
      { current with
        counters := current.counters.increaseRemovalBlockingCount
        status := .running
        work := rest }) task).congr ?_ ?_ (fun _ => rfl) (fun _ => rfl)
    (fun _ => rfl) fun _ => rfl
  · intro other
    rw [System.task_modifyTask]
    split
    · rename_i same
      rw [same]
    · rfl
  · intro other
    rw [System.task_modifyTask]
    split
    · rename_i same
      rw [same]
    · rfl

namespace Covered

variable {system next : System} {task : TaskId}

theorem exits (covered : Covered system) (exits : Exits system next task)
    (parent : ∀ other,
      (next.task other).parent = (system.task other).parent)
    (linking : ∀ other, Work.linkProgress (next.task other).work =
      Work.linkProgress (system.task other).work)
    (registering : ∀ other, (next.task other).status = .registering →
      (system.task other).status = .registering)
    (waits : ∀ other, other ≠ task →
      (next.task other).status.waits = false →
        (system.task other).status.waits = false)
    (alone : ∀ other, Work.Alone (next.task other).work)
    (closed : ∀ address, ¬ system.OpenAt task address) : Covered next := by
  have same : ∀ other address, other ≠ task →
      (next.task other).footprint address =
        (system.task other).footprint address := by
    intro other address differ
    simp only [Task.footprint, exits.objects other differ,
      exits.bottomMaps other differ]
  have cleared := exits.footprint (covered.aligned task)
  refine covered.keeps parent linking registering alone ?_ ?_ ?_ ?_ ?_ ?_
  · intro other part member
    by_cases isTask : other = task
    · subst isTask
      cases accesses : (system.task other).hasAccesses with
      | false =>
          rw [exits.untouched accesses] at member
          exact ⟨part, member, Nat.le_refl _, Nat.le_refl _⟩
      | true =>
          rw [(exits.cleared accesses).1] at member
          obtain ⟨old, oldMember, rfl⟩ := (IntervalMap.mem_mapValues _).mp
            member
          exact ⟨old, oldMember, Nat.le_refl _, Nat.le_refl _⟩
    · rw [exits.objects other isTask] at member
      exact ⟨part, member, Nat.le_refl _, Nat.le_refl _⟩
  · intro other address
    by_cases isTask : other = task
    · subst isTask
      simp only [Footprint.accessType, (cleared address).1, Option.map_map]
      rfl
    · rw [same other address isTask]
  · intro other address
    by_cases isTask : other = task
    · subst isTask
      obtain ⟨access, fragment, -⟩ := cleared address
      unfold Footprint.Aligned
      rw [access, fragment]
      cases ((system.task other).footprint address).access <;> rfl
    · rw [same other address isTask]
      exact covered.aligned other address
  · intro other address
    by_cases isTask : other = task
    · subst isTask
      intro entry found
      rw [(cleared address).2.2.1] at found
      cases found
    · rw [same other address isTask]
      exact covered.rooted other address
  · intro other address awake mapped otherClosed
    by_cases isTask : other = task
    · subst isTask
      obtain ⟨access, -, entry, taskwait⟩ := cleared address
      unfold Footprint.Mapped
      rw [access, entry]
      cases before : ((system.task other).footprint address).access with
      | none =>
          intro found isFound
          cases isFound
      | some shape =>
          refine ⟨rfl, taskwait ?_⟩
          simp only [Task.hasAccesses, Bool.not_eq_true',
            List.isEmpty_eq_false_iff]
          intro absent
          simp [Task.footprint, IntervalMap.lookup, absent] at before
    · rw [same other address isTask]
      exact mapped (waits other isTask awake) otherClosed
  · intro other address isOpen opened
    have differ : other ≠ task := by
      rintro rfl
      exact closed address isOpen
    rw [same other address differ]
    exact opened

end Covered

/-- A task without accesses that waits for nothing has no taskwait fragment
left. -/
theorem TaskwaitsKept.noneLeft {system : System}
    (taskwaits : TaskwaitsKept system) {task : TaskId} {undisposed : Nat}
    (balance : TaskBalance undisposed (system.task task))
    (waits : (system.task task).status.waits = true)
    (noneLive :
      (system.task task).counters.liveTaskwaitFragmentCount = 0)
    (noAccesses : (system.task task).hasAccesses = false) :
    ((system.task task).objects .taskwaitFragments).pieces = [] := by
  rw [List.eq_nil_iff_forall_not_mem]
  intro piece member
  obtain ⟨registered, removable⟩ := taskwaits.kept.taskwaits task piece member
  obtain ⟨kind, linked⟩ := taskwaits.waits task waits piece member
  have notRemovable : piece.value.isRemovable = false := by
    by_contra isRemovable
    have accesses :=
      linked (removable (Bool.eq_true_of_not_eq_false isRemovable))
    rw [noAccesses] at accesses
    cases accesses
  have live : piece.value.isLiveTaskwait = true := by
    simp [DataAccess.isLiveTaskwait, DataAccess.isCounted, registered,
      notRemovable, kind]
  have positive := countObjects_pos member live
  have counted := balance.live
  rw [noneLive] at counted
  omega

theorem Kept.exits {system next : System} (kept : Kept system)
    {task : TaskId} (exits : Exits system next task) : Kept next := by
  refine kept.congr ?_ ?_ ?_ ?_
  · intro other piece member
    by_cases isTask : other = task
    · subst isTask
      cases accesses : (system.task other).hasAccesses with
      | false =>
          rw [exits.untouched accesses] at member
          exact member
      | true =>
          rw [(exits.cleared accesses).2 _ (by simp)] at member
          cases member
    · rw [exits.objects other isTask] at member
      exact member
  · intro other map piece member hasSubaccesses
    by_cases isTask : other = task
    · subst isTask
      cases accesses : (system.task other).hasAccesses with
      | false =>
          rw [exits.untouched accesses] at member
          exact kept.subaccesses other map piece member hasSubaccesses
      | true =>
          by_contra differ
          rw [(exits.cleared accesses).2 map differ] at member
          cases member
    · rw [exits.objects other isTask] at member
      exact kept.subaccesses other map piece member hasSubaccesses
  · intro other before _
    rw [exits.hasAccesses]
    exact before
  · intro other updating
    rwa [exits.updates] at updating

theorem TaskwaitsKept.exits {system next : System}
    (taskwaits : TaskwaitsKept system) {task : TaskId}
    (exits : Exits system next task)
    (noneLeft : (system.task task).hasAccesses = false →
      ((system.task task).objects .taskwaitFragments).pieces = [])
    (status : ∀ other, other ≠ task →
      (next.task other).status = (system.task other).status)
    (awake : (next.task task).status.waits = false)
    (before : (system.task task).status.waits = true)
    (work : ∀ other, ∀ loop ∈ (next.task other).work,
      loop ∈ (system.task other).work ∧ other ≠ task) :
    TaskwaitsKept next := by
  have absent :
      ((next.task task).objects .taskwaitFragments).pieces = [] := by
    cases accesses : (system.task task).hasAccesses with
    | false =>
        rw [exits.untouched accesses]
        exact noneLeft accesses
    | true =>
        rw [(exits.cleared accesses).2 _ (by simp)]
        rfl
  have present : ∀ other,
      ∀ part ∈ ((next.task other).objects .taskwaitFragments).pieces,
        part ∈ ((system.task other).objects .taskwaitFragments).pieces := by
    intro other part member
    by_cases isTask : other = task
    · subst isTask
      rw [absent] at member
      cases member
    · rw [exits.objects other isTask] at member
      exact member
  refine taskwaits.keeps (taskwaits.kept.exits exits)
    (fun other part member => ⟨part, present other part member, rfl⟩)
    (fun other part member hasNext =>
      Or.inr ⟨part, present other part member, hasNext⟩) ?_ ?_ ?_ ?_ ?_ ?_
  · intro other some _
    rw [exits.hasAccesses]
    exact some
  · intro other address entry found _
    by_cases isTask : other = task
    · subst isTask
      simp only [Task.footprint, exits.bottomMap] at found
      cases found
    · simp only [Task.footprint, exits.bottomMaps other isTask] at found ⊢
      exact found
  · intro other otherAwake _
    by_cases isTask : other = task
    · subst isTask
      exact Or.inr absent
    · rw [status other isTask] at otherAwake
      exact Or.inl otherAwake
  · intro other waiting
    by_cases isTask : other = task
    · subst isTask
      exact Or.inl before
    · rw [status other isTask] at waiting
      exact Or.inl waiting
  · intro other early
    by_cases isTask : other = task
    · subst isTask
      revert before
      cases (system.task other).status <;>
        simp [TaskStatus.waits, TaskStatus.releases]
    · rwa [status other isTask] at early
  · intro other link region member isTaskwait
    obtain ⟨inWork, differ⟩ := work other _ member
    rw [status other differ]
    exact taskwaits.previous other link region inWork isTaskwait

/-! ## Every step -/

/-- The invariants of the coverage. -/
structure CoverageState (system : System) : Prop where
  covered : Covered system
  taskwaits : TaskwaitsKept system

namespace CoverageState

variable {system next : System} {task : TaskId}

/-- Objects at most change their status, and the tasks go on in their lives. -/
theorem moves (coverage : CoverageState system)
    (restated : Restated system.LinksTaskwaits system next)
    (phased : Phased system) (phasedNext : Phased next)
    (parent : ∀ other,
      (next.task other).parent = (system.task other).parent)
    (registering : ∀ other, (next.task other).status = .registering →
      (system.task other).status = .registering ∧
        (next.task other).work = (system.task other).work)
    (registered : ∀ other, (system.task other).status = .registering →
      (next.task other).status = .registering ∨
        Work.linkProgress (system.task other).work = none)
    (waits : ∀ other, (next.task other).status.waits = false →
      (system.task other).status.waits = false)
    (enters : ∀ other, (next.task other).status.waits = true →
      (system.task other).status.waits = true ∨
        (system.task other).status.releases = false)
    (releases : ∀ other, (next.task other).status.releases = false →
      (system.task other).status.releases = false)
    (previous : ∀ other previous region,
      .linkToTaskwait previous region ∈ (next.task other).work →
        .linkToTaskwait previous region ∈ (system.task other).work ∧
          (next.task other).status = (system.task other).status) :
    CoverageState next := by
  refine ⟨?_, ?_⟩
  · refine coverage.covered.restated restated parent ?_
      (fun other status => (registering other status).1) waits ?_
    · intro other
      by_cases status : (next.task other).status = .registering
      · rw [(registering other status).2]
      · have now : Work.linkProgress (next.task other).work = none :=
          (phasedNext other).linkProgress_eq_none status
        rw [now]
        by_cases before : (system.task other).status = .registering
        · exact ((registered other before).resolve_left status).symm
        · exact ((phased other).linkProgress_eq_none before).symm
    · intro other
      by_cases status : (next.task other).status = .registering
      · rw [(registering other status).2]
        exact coverage.covered.alone other
      · exact (phasedNext other).alone status
  · refine coverage.taskwaits.restated restated
      (fun other awake _ => waits other awake) enters releases ?_
    intro other link region member isTaskwait
    obtain ⟨before, same⟩ := previous other link region member
    rw [same]
    exact coverage.taskwaits.previous other link region before isTaskwait

/-- The life of one task goes on, without a change of any object. -/
theorem restatus (coverage : CoverageState system) (phased : Phased system)
    (phasedNext : Phased next) {control : Control}
    (changed : next.control = Function.update system.control task control)
    (same : Restated system.LinksTaskwaits system next)
    (parent : control.parent = (system.task task).parent)
    (started : control.status ≠ .registering)
    (idle : Work.linkProgress (system.task task).work = none)
    (waits : control.status.waits = false →
      (system.task task).status.waits = false)
    (enters : (system.task task).status.releases = true →
      control.status.waits = false)
    (releases : control.status.releases = false →
      (system.task task).status.releases = false)
    (previous : ∀ previous region,
      .linkToTaskwait previous region ∉ control.work) :
    CoverageState next := by
  have here : (next.task task).control = control := by
    have equality := congrFun changed task
    rwa [Function.update_self] at equality
  have status : (next.task task).status = control.status :=
    congrArg Control.status here
  have work : (next.task task).work = control.work :=
    congrArg Control.work here
  have others : ∀ other, other ≠ task →
      (next.task other).control = (system.task other).control := by
    intro other differ
    have equality := congrFun changed other
    rwa [Function.update_of_ne differ] at equality
  have otherStatus : ∀ other, other ≠ task →
      (next.task other).status = (system.task other).status :=
    fun other differ => congrArg Control.status (others other differ)
  have otherWork : ∀ other, other ≠ task →
      (next.task other).work = (system.task other).work :=
    fun other differ => congrArg Control.work (others other differ)
  refine coverage.moves same phased phasedNext ?_ ?_ ?_ ?_ ?_ ?_ ?_
  · intro other
    by_cases isTask : other = task
    · rw [isTask, ← parent]
      exact congrArg Control.parent here
    · exact congrArg Control.parent (others other isTask)
  · intro other registering
    by_cases isTask : other = task
    · rw [isTask, status] at registering
      exact absurd registering started
    · rw [otherStatus other isTask] at registering
      exact ⟨registering, otherWork other isTask⟩
  · intro other registering
    by_cases isTask : other = task
    · rw [isTask]
      exact Or.inr idle
    · rw [otherStatus other isTask]
      exact Or.inl registering
  · intro other
    by_cases isTask : other = task
    · rw [isTask, status]
      exact waits
    · rw [otherStatus other isTask]
      exact id
  · intro other waiting
    by_cases isTask : other = task
    · rw [isTask, status] at waiting
      rw [isTask]
      cases releasing : (system.task task).status.releases with
      | false => exact Or.inr rfl
      | true =>
          rw [enters releasing] at waiting
          cases waiting
    · rw [otherStatus other isTask] at waiting
      exact Or.inl waiting
  · intro other
    by_cases isTask : other = task
    · rw [isTask, status]
      exact releases
    · rw [otherStatus other isTask]
      exact id
  · intro other link region member
    by_cases isTask : other = task
    · rw [isTask, work] at member
      exact absurd member (previous link region)
    · rw [otherWork other isTask] at member
      exact ⟨member, otherStatus other isTask⟩

/-- A change of the control and the counters of one task. -/
private theorem unchanged {links : TaskId → Prop} {change : Task → Task}
    (objects : (change (system.task task)).objects =
      (system.task task).objects)
    (bottomMap : (change (system.task task)).subaccessBottomMap =
      (system.task task).subaccessBottomMap) :
    Restated links system (system.modifyTask task change) := by
  refine Restated.refl.frame ?_ ?_ fun _ updates => updates
  · intro other
    rw [System.task_modifyTask]
    split
    · rename_i same
      rw [same, objects]
    · rfl
  · intro other
    rw [System.task_modifyTask]
    split
    · rename_i same
      rw [same, bottomMap]
    · rfl

/-- A task begins another operation, or another part of its life. -/
theorem begins (coverage : CoverageState system) (phased : Phased system)
    {status : TaskStatus} {work : List Work}
    (phasedNext : Phased
      (system.modifyTask task fun current =>
        { current with status := status, work := work }))
    (before : (system.task task).status = .registered ∨
      (system.task task).status = .running ∨
      (system.task task).status = .finished)
    (after : status ≠ .registering ∧ status.waits = false)
    (previous : ∀ previous region,
      .linkToTaskwait previous region ∉ work) :
    CoverageState
      (system.modifyTask task fun current =>
        { current with status := status, work := work }) := by
  have control := System.control_modifyTask system task fun current =>
    { current with status := status, work := work }
  have idle : Work.linkProgress (system.task task).work = none := by
    refine (phased task).linkProgress_eq_none ?_
    change (system.task task).status ≠ .registering
    rcases before with before | before | before <;> rw [before] <;> simp
  refine coverage.restatus phased phasedNext control (unchanged rfl rfl) rfl
    after.1 idle ?_ (fun _ => after.2) ?_ previous
  · intro _
    rcases before with before | before | before <;> rw [before] <;> rfl
  · intro _
    rcases before with before | before | before <;> rw [before] <;> rfl

/-- The parent of a registered task goes on. -/
private theorem endsRegistration (coverage : CoverageState system)
    (phased : Phased system) (parent : TaskId) :
    CoverageState
      (system.modifyTask parent fun current =>
        { current with registeringChild := none }) := by
  have same : ∀ other,
      ((system.modifyTask parent fun current =>
        { current with registeringChild := none }).task other).status =
          (system.task other).status ∧
      ((system.modifyTask parent fun current =>
        { current with registeringChild := none }).task other).work =
          (system.task other).work ∧
      ((system.modifyTask parent fun current =>
        { current with registeringChild := none }).task other).parent =
          (system.task other).parent := by
    intro other
    rw [System.task_modifyTask]
    split
    · rename_i isParent
      rw [isParent]
      exact ⟨rfl, rfl, rfl⟩
    · exact ⟨rfl, rfl, rfl⟩
  have phasedNext : Phased
      (system.modifyTask parent fun current =>
        { current with registeringChild := none }) := by
    intro other
    change WorkFits (System.task _ other).status (System.task _ other).work
    rw [(same other).1, (same other).2.1]
    exact phased other
  refine coverage.moves (unchanged rfl rfl) phased phasedNext
    (fun other => (same other).2.2) ?_ ?_ ?_ ?_ ?_ ?_
  · intro other status
    rw [(same other).1] at status
    exact ⟨status, (same other).2.1⟩
  · intro other status
    rw [(same other).1]
    exact Or.inl status
  · intro other
    rw [(same other).1]
    exact id
  · intro other waiting
    rw [(same other).1] at waiting
    exact Or.inl waiting
  · intro other
    rw [(same other).1]
    exact id
  · intro other link region member
    rw [(same other).2.1] at member
    exact ⟨member, (same other).1⟩

theorem decreasePredecessors (coverage : CoverageState system)
    (phased : Phased system) {rest : List Work}
    (working : (system.task task).work = .decreasePredecessors :: rest) :
    CoverageState (Nanos6.decreasePredecessors system task rest) := by
  obtain ⟨status, rfl⟩ := phased.atDecreasePredecessors working
  obtain ⟨change, changeIs⟩ : ∃ change : Task → Task, change = fun current =>
      { current with
        counters := (current.counters.decreasePredecessors 2).1
        status := .registered
        work := []
        readyReports :=
          current.readyReports ++
            if (current.counters.decreasePredecessors 2).2 then
              [.registrationReturn]
            else [] } :=
    ⟨_, rfl⟩
  have control := System.control_modifyTask system task change
  have phasedNext : Phased (system.modifyTask task change) := by
    refine phased.update control ?_
    rw [changeIs]
    exact workFits_last .registered
  have registered : CoverageState (system.modifyTask task change) := by
    refine coverage.restatus phased phasedNext control
      (unchanged (by rw [changeIs]) (by rw [changeIs])) ?_ ?_
      (by rw [working]; rfl) ?_ ?_ ?_ ?_
    · rw [changeIs]
      rfl
    · rw [changeIs]
      simp [Task.control]
    · rw [status]
      exact fun _ => rfl
    · rw [changeIs]
      exact fun _ => rfl
    · rw [status]
      exact fun _ => rfl
    · rw [changeIs]
      intro link region member
      cases member
  subst changeIs
  unfold Nanos6.decreasePredecessors
  dsimp only
  split
  · exact registered
  · exact registered.endsRegistration phasedNext _

theorem enterTaskwait (coverage : CoverageState system)
    (phased : Phased system) {rest : List Work}
    (working : (system.task task).work = .enterTaskwait :: rest)
    (phasedNext : Phased (handleEnterTaskwait system task rest)) :
    CoverageState (handleEnterTaskwait system task rest) := by
  obtain ⟨loops, control, shape⟩ :=
    control_handleEnterTaskwait system task rest
  have same : Restated system.LinksTaskwaits system
      (system.modifyTask task (Task.enterTaskwait rest)) :=
    unchanged rfl rfl
  have noLink : ∀ previous region, .linkToTaskwait previous region ∉
      loops ++ .finalizeFragments 0 :: rest := by
    intro link region member
    rcases phased.atEnterTaskwait working with ⟨-, rfl⟩ | ⟨-, rfl⟩ <;>
      rcases shape with rfl | rfl <;> simp at member
  have idle : Work.linkProgress (system.task task).work = none := by
    rw [working]
    rfl
  refine coverage.restatus phased phasedNext control
    (same.frame (fun _ => rfl) (fun _ => rfl) fun _ updates => updates) rfl
    ?_ idle ?_ ?_ ?_ noLink
  · dsimp only
    split <;> simp
  · intro awake
    dsimp only at awake
    split at awake <;> cases awake
  · intro releasing
    rcases phased.atEnterTaskwait working with ⟨status, -⟩ | ⟨status, -⟩ <;>
      rw [status] at releasing <;> cases releasing
  · intro _
    rcases phased.atEnterTaskwait working with ⟨status, -⟩ | ⟨status, -⟩ <;>
      rw [status] <;> rfl

theorem markAsBlocked (coverage : CoverageState system)
    (phased : Phased system) {rest : List Work}
    (working : (system.task task).work = .markAsBlocked :: rest)
    (phasedNext : Phased (Nanos6.markAsBlocked system task rest)) :
    CoverageState (Nanos6.markAsBlocked system task rest) := by
  obtain ⟨status, rfl⟩ := phased.atMarkAsBlocked working
  obtain ⟨done, control⟩ := control_markAsBlocked system task []
  refine coverage.restatus phased phasedNext control (unchanged rfl rfl) rfl
    ?_ (by rw [working]; rfl) ?_ ?_ ?_ ?_
  · dsimp only
    split <;> simp
  · intro awake
    dsimp only at awake
    split at awake <;> cases awake
  · rw [status]
    intro releasing
    cases releasing
  · rw [status]
    exact fun _ => rfl
  · intro link region member
    dsimp only at member
    split at member <;> simp at member

theorem markAsReleased (coverage : CoverageState system)
    (phased : Phased system) {rest : List Work}
    (working : (system.task task).work = .markAsReleased :: rest)
    (phasedNext : Phased (Nanos6.markAsReleased system task rest)) :
    CoverageState (Nanos6.markAsReleased system task rest) := by
  obtain ⟨status, rfl⟩ := phased.atMarkAsReleased working
  have same : Restated system.LinksTaskwaits system
      (system.modifyTask task fun current =>
        { current with
          counters :=
            (system.task task).counters.decreaseRemovalBlockingCount.1
          status := .released
          work := [] }) :=
    unchanged rfl rfl
  refine coverage.restatus phased phasedNext
    (control_markAsReleased system task [])
    (same.frame (fun _ => rfl) (fun _ => rfl) fun _ updates => updates) rfl
    (by simp) (by rw [working]; rfl) ?_ ?_ ?_ ?_
  · rw [status]
    exact fun _ => rfl
  · exact fun _ => rfl
  · intro early
    cases early
  · intro link region member
    cases member

/-- No child of a task that waits is being registered. -/
private theorem closed_of_waits (orderly : Orderly system)
    (enrolled : Enrolled system)
    (awake : (system.task task).status ≠ .running) (address : Nat) :
    ¬ system.OpenAt task address := by
  rintro ⟨child, progress, parentIs, linking, -⟩
  exact awake (orderly.running_of_linkProgress enrolled parentIs linking)

/-- A taskwait or a wait clause of a task is over. -/
theorem leaves (coverage : CoverageState system) (state : SoundState system)
    (phasedNext : Phased next) {control : Control}
    (changed : next.control = Function.update system.control task control)
    (exits : Exits system next task)
    (parent : control.parent = (system.task task).parent)
    (waiting : (system.task task).status.waits = true)
    (after : control.status = .running ∨ control.status = .finished)
    (idle : control.work = [])
    (noneLive :
      (system.task task).counters.liveTaskwaitFragmentCount = 0) :
    CoverageState next := by
  have here : (next.task task).control = control := by
    have equality := congrFun changed task
    rwa [Function.update_self] at equality
  have status : (next.task task).status = control.status :=
    congrArg Control.status here
  have work : (next.task task).work = [] :=
    (congrArg Control.work here).trans idle
  have others : ∀ other, other ≠ task →
      (next.task other).control = (system.task other).control := by
    intro other differ
    have equality := congrFun changed other
    rwa [Function.update_of_ne differ] at equality
  have otherStatus : ∀ other, other ≠ task →
      (next.task other).status = (system.task other).status :=
    fun other differ => congrArg Control.status (others other differ)
  have otherWork : ∀ other, other ≠ task →
      (next.task other).work = (system.task other).work :=
    fun other differ => congrArg Control.work (others other differ)
  have awakeNow : (next.task task).status.waits = false := by
    rw [status]
    rcases after with after | after <;> rw [after] <;> rfl
  have startedNow : (next.task task).status ≠ .registering := by
    rw [status]
    rcases after with after | after <;> rw [after] <;> simp
  have started : (system.task task).status ≠ .registering := by
    intro registering
    rw [registering] at waiting
    cases waiting
  have notRunning : (system.task task).status ≠ .running := by
    intro running
    rw [running] at waiting
    cases waiting
  refine ⟨coverage.covered.exits exits ?_ ?_ ?_ ?_ ?_ ?_, ?_⟩
  · intro other
    by_cases isTask : other = task
    · rw [isTask, ← parent]
      exact congrArg Control.parent here
    · exact congrArg Control.parent (others other isTask)
  · intro other
    by_cases isTask : other = task
    · rw [isTask, work]
      exact ((state.orderly.phased task).linkProgress_eq_none started).symm
    · rw [otherWork other isTask]
  · intro other registering
    by_cases isTask : other = task
    · rw [isTask] at registering
      exact absurd registering startedNow
    · rwa [otherStatus other isTask] at registering
  · intro other differ awake
    rwa [otherStatus other differ] at awake
  · intro other
    by_cases isTask : other = task
    · rw [isTask]
      exact (phasedNext task).alone startedNow
    · rw [otherWork other isTask]
      exact coverage.covered.alone other
  · exact closed_of_waits state.orderly state.wellFormed.enrolled notRunning
  · refine coverage.taskwaits.exits exits ?_ otherStatus awakeNow waiting ?_
    · exact coverage.taskwaits.noneLeft (state.balanced.tasks task) waiting
        noneLive
    · intro other loop member
      by_cases isTask : other = task
      · rw [isTask, work] at member
        cases member
      · rw [otherWork other isTask] at member
        exact ⟨member, isTask⟩

theorem exitTaskwait (coverage : CoverageState system)
    (state : SoundState system) {rest : List Work}
    (working : (system.task task).work = .exitTaskwait :: rest)
    (phasedNext : Phased (Nanos6.exitTaskwait system task rest)) :
    CoverageState (Nanos6.exitTaskwait system task rest) := by
  obtain ⟨status, rfl⟩ := state.orderly.phased.atExitTaskwait working
  obtain ⟨-, noneLive, -⟩ := (state.balanced.tasks task).leaving status
  exact coverage.leaves state phasedNext
    (control_exitTaskwait system task [])
    (exits_exitTaskwait system task []) rfl (by rw [status]; rfl)
    (Or.inl rfl) rfl noneLive

theorem completeWaitClause (coverage : CoverageState system)
    (state : SoundState system) {rest : List Work}
    (working : (system.task task).work = .completeWaitClause :: rest)
    (phasedNext : Phased (Nanos6.completeWaitClause system task rest)) :
    CoverageState (Nanos6.completeWaitClause system task rest) := by
  obtain ⟨status, rfl⟩ := state.orderly.phased.atCompleteWaitClause working
  obtain ⟨change, changeIs⟩ : ∃ change : Task → Task, change = fun current =>
      { current with
        counters := (system.task task).counters.decreaseRemovalBlockingCount.1
        status := .waitClausePending
        work := [] } :=
    ⟨_, rfl⟩
  have control := System.control_modifyTask system task change
  have result : Nanos6.completeWaitClause system task [] =
      if (system.task task).counters.countdownToBeWokenUp - 1 == 0 then
        Nanos6.completeDelayedRelease (system.modifyTask task change) task
      else system.modifyTask task change := by
    rw [changeIs]
    rfl
  rw [result] at phasedNext ⊢
  split at phasedNext
  · rename_i done
    rw [if_pos done]
    rw [beq_iff_eq] at done
    obtain ⟨-, isOver⟩ := Balanced.balance_over (state.balanced.tasks task)
      (state.sound.tasks task) (by rw [status]; rfl)
      (by
        rw [status]
        simp only [TaskStatus.holdsBody, if_true]
        omega)
    obtain ⟨-, noneLive⟩ := Balanced.noneLive_of_over isOver
    have released :=
      control_completeDelayedRelease (system.modifyTask task change) task
    rw [control, Function.update_idem] at released
    refine coverage.leaves state phasedNext released ?_ ?_
      (by rw [status]; rfl) (Or.inr rfl) ?_ noneLive
    · refine exits_completeDelayedRelease ?_ ?_ fun _ => rfl
      · intro other
        rw [System.task_modifyTask]
        split
        · rename_i same
          rw [same, changeIs]
        · rfl
      · intro other
        rw [System.task_modifyTask]
        split
        · rename_i same
          rw [same, changeIs]
        · rfl
    · rw [Function.update_self, changeIs]
      rfl
    · rw [Function.update_self, changeIs]
      rfl
  · rename_i later
    rw [if_neg later]
    refine coverage.restatus state.orderly.phased phasedNext control
      (unchanged (by rw [changeIs]) (by rw [changeIs])) ?_ ?_
      (by rw [working]; rfl) ?_ ?_ ?_ ?_
    · rw [changeIs]
      rfl
    · rw [changeIs]
      simp [Task.control]
    · rw [changeIs]
      intro awake
      cases awake
    · rw [status]
      intro releasing
      cases releasing
    · rw [status]
      exact fun _ => rfl
    · rw [changeIs]
      intro link region member
      cases member

/-- A deleted task has no objects. -/
theorem objects_disposeTask (system : System) (task other : TaskId) :
    ((disposeTask system task).task other).objects =
        (if other = task then fun _ => .empty
          else (system.task other).objects) ∧
      ((disposeTask system task).task other).subaccessBottomMap =
        (if other = task then .empty
          else (system.task other).subaccessBottomMap) ∧
      (disposeTask system task).updatesBottomMap other =
        system.updatesBottomMap other := by
  unfold disposeTask
  dsimp only
  split
  · refine ⟨?_, ?_, rfl⟩ <;> rw [System.task_modifyTask] <;> split <;> rfl
  · rename_i parent _
    refine ⟨?_, ?_, rfl⟩
    all_goals
      simp only [System.task_modifyTask]
      by_cases isParent : other = parent
      · rw [if_pos isParent, ← isParent]
        split <;> rfl
      · rw [if_neg isParent]
        split <;> rfl

/-- A finished task is deleted.  None of its children is being registered. -/
theorem disposes (coverage : CoverageState system)
    (state : SoundState system) {accesses : IntervalMap DataAccess}
    (changed : next.control = Function.update system.control task
      { system.control task with
        status := .disposed, deletedAccesses := accesses })
    (objects : ∀ other, (next.task other).objects =
      if other = task then fun _ => .empty else (system.task other).objects)
    (bottomMaps : ∀ other, (next.task other).subaccessBottomMap =
      if other = task then .empty
      else (system.task other).subaccessBottomMap)
    (updates : ∀ other,
      next.updatesBottomMap other = system.updatesBottomMap other)
    (status : (system.task task).status = .released)
    (work : (system.task task).work = [])
    (free : system.updatesBottomMap task = false) : CoverageState next := by
  obtain ⟨covered, taskwaits⟩ := coverage
  have here : (next.task task).control =
      { system.control task with
        status := .disposed, deletedAccesses := accesses } := by
    have equality := congrFun changed task
    rwa [Function.update_self] at equality
  have statusNow : (next.task task).status = .disposed :=
    congrArg Control.status here
  have others : ∀ other, other ≠ task →
      (next.task other).control = (system.task other).control := by
    intro other differ
    have equality := congrFun changed other
    rwa [Function.update_of_ne differ] at equality
  have otherStatus : ∀ other, other ≠ task →
      (next.task other).status = (system.task other).status :=
    fun other differ => congrArg Control.status (others other differ)
  have sameWork : ∀ other,
      (next.task other).work = (system.task other).work := by
    intro other
    by_cases isTask : other = task
    · rw [isTask]
      exact congrArg Control.work here
    · exact congrArg Control.work (others other isTask)
  have sameParent : ∀ other,
      (next.task other).parent = (system.task other).parent := by
    intro other
    by_cases isTask : other = task
    · rw [isTask]
      exact congrArg Control.parent here
    · exact congrArg Control.parent (others other isTask)
  have sameOpen : ∀ other address,
      next.OpenAt other address ↔ system.OpenAt other address := by
    intro other address
    simp only [System.OpenAt, sameParent, sameWork]
  have notRunning : (system.task task).status ≠ .running := by
    rw [status]
    simp
  have noneRegistering : ∀ child,
      (system.task child).parent = some task →
        (system.task child).status ≠ .registering := by
    intro child parentIs registering
    obtain ⟨parent, isParent, registers⟩ :=
      state.orderly.registers child registering
    have same : (system.task child).parent = some parent := isParent
    rw [parentIs] at same
    obtain rfl := Option.some.inj same
    exact notRunning (state.orderly.running task child registers).1
  have nothing : ∀ address, (next.task task).footprint address =
      ⟨none, false, false, none⟩ := by
    intro address
    simp only [Task.footprint, objects, bottomMaps]
    rfl
  have sameFootprint : ∀ other address, other ≠ task →
      (next.task other).footprint address =
        (system.task other).footprint address := by
    intro other address differ
    simp only [Task.footprint, objects, bottomMaps, if_neg differ]
  have present : ∀ other map,
      ∀ piece ∈ ((next.task other).objects map).pieces, other ≠ task ∧
        piece ∈ ((system.task other).objects map).pieces := by
    intro other map piece member
    rw [objects] at member
    by_cases isTask : other = task
    · rw [if_pos isTask] at member
      cases member
    · rw [if_neg isTask] at member
      exact ⟨isTask, member⟩
  refine ⟨⟨?_, ?_, ?_, ?_, ?_, ?_, ?_⟩, ⟨?_, ?_, ?_, ?_, ?_⟩⟩
  · intro other address
    by_cases isTask : other = task
    · rw [isTask, nothing]
      rfl
    · rw [sameFootprint other address isTask]
      exact covered.aligned other address
  · intro other address
    by_cases isTask : other = task
    · rw [isTask, nothing]
      intro entry found
      cases found
    · rw [sameFootprint other address isTask]
      exact covered.rooted other address
  · intro other address awake closed
    by_cases isTask : other = task
    · rw [isTask, nothing]
      intro entry found
      cases found
    · rw [sameFootprint other address isTask]
      rw [otherStatus other isTask] at awake
      rw [sameOpen] at closed
      exact covered.mapped other address awake closed
  · intro other address isOpen
    rw [sameOpen] at isOpen
    have differ : other ≠ task := by
      rintro rfl
      exact closed_of_waits state.orderly state.wellFormed.enrolled notRunning
        address isOpen
    rw [sameFootprint other address differ]
    exact covered.opened other address isOpen
  · intro child parent registering parentIs piece member
    obtain ⟨differ, old⟩ := present child .accesses piece member
    rw [otherStatus child differ] at registering
    rw [sameParent] at parentIs
    have parentDiffers : parent ≠ task := by
      rintro rfl
      exact noneRegistering child parentIs registering
    have nests :=
      covered.nested child parent registering parentIs piece old
    exact nests.mono
      (fun address => by rw [sameFootprint parent address parentDiffers])
      (Nat.le_refl _) (Nat.le_refl _)
  · intro child parent progress parentIs linking
    rw [sameParent] at parentIs
    rw [sameWork] at linking
    have parentDiffers : parent ≠ task := by
      rintro rfl
      exact notRunning (state.orderly.running_of_linkProgress
        state.wellFormed.enrolled parentIs linking)
    exact (covered.fits child parent progress parentIs linking).congr
      fun address => by rw [sameFootprint parent address parentDiffers]
  · intro other
    rw [sameWork]
    exact covered.alone other
  · refine taskwaits.kept.congr
      (fun other piece member => (present other _ piece member).2) ?_ ?_ ?_
    · intro other map piece member
      exact taskwaits.kept.subaccesses other map piece
        (present other map piece member).2
    · intro other some updating
      have differ : other ≠ task := by
        rintro rfl
        rw [updates, free] at updating
        cases updating
      simp only [Task.hasAccesses, objects, if_neg differ] at some ⊢
      exact some
    · intro other updating
      rwa [updates] at updating
  · intro other awake early
    rw [objects]
    by_cases isTask : other = task
    · rw [if_pos isTask]
      rfl
    · rw [otherStatus other isTask] at awake early
      rw [if_neg isTask]
      exact taskwaits.absent other awake early
  · intro other waiting piece member
    obtain ⟨differ, old⟩ := present other .taskwaitFragments piece member
    rw [otherStatus other differ] at waiting
    simp only [Task.hasAccesses, objects, if_neg differ]
    exact taskwaits.waits other waiting piece old
  · intro other address entry found kind
    have differ : other ≠ task := by
      rintro rfl
      rw [nothing] at found
      cases found
    rw [sameFootprint other address differ] at found
    rw [otherStatus other differ]
    exact taskwaits.sinks other address entry found kind
  · intro other link region member isTaskwait
    rw [sameWork] at member
    have differ : other ≠ task := by
      rintro rfl
      rw [work] at member
      cases member
    rw [otherStatus other differ]
    exact taskwaits.previous other link region member isTaskwait

theorem disposeOrUnblockTask (coverage : CoverageState system)
    (state : SoundState system) {index : Nat}
    (disposed : Nanos6.disposeOrUnblockTask system index = some next)
    (phasedNext : Phased next) : CoverageState next := by
  obtain ⟨removed, found, work, free, called⟩ :=
    state.balanced.disposals state.orderly disposed
  have low :=
    (state.balanced.pending removed (List.mem_of_getElem? found)).2
  rcases called with ⟨status, rfl⟩ | ⟨status, rfl⟩ | ⟨blocked, rfl⟩
  · obtain ⟨-, isOver⟩ := Balanced.balance_over (state.balanced.tasks removed)
      (state.sound.tasks removed) (by rw [status]; rfl)
      (by rw [status]; exact low)
    obtain ⟨-, noneLive⟩ := Balanced.noneLive_of_over isOver
    exact coverage.leaves state phasedNext
      (control_completeDelayedRelease
        { system with
          pendingDisposals := system.pendingDisposals.eraseIdx index }
        removed)
      (exits_completeDelayedRelease (fun _ => rfl) (fun _ => rfl)
        fun _ => rfl)
      rfl (by rw [status]; rfl) (Or.inr rfl) work noneLive
  · obtain ⟨called, calledIs⟩ : ∃ called, called =
        { system with
          pendingDisposals := system.pendingDisposals.eraseIdx index } :=
      ⟨_, rfl⟩
    have same : called.task = system.task := by rw [calledIs]
    have control := control_disposeTask called removed
    have sameControl : called.control = system.control := by rw [calledIs]; rfl
    rw [sameControl] at control
    rw [← calledIs]
    refine coverage.disposes state control ?_ ?_ ?_ status work free
    · intro other
      rw [(objects_disposeTask called removed other).1, same]
    · intro other
      rw [(objects_disposeTask called removed other).2.1, same]
    · intro other
      rw [(objects_disposeTask called removed other).2.2, calledIs]
      rfl
  · have control := System.control_modifyTask
      { system with
        pendingDisposals := system.pendingDisposals.eraseIdx index }
      removed fun current =>
        { current with status := .leavingTaskwait, work := [.exitTaskwait] }
    have same : Restated system.LinksTaskwaits system
        { system with
          pendingDisposals := system.pendingDisposals.eraseIdx index } :=
      Restated.refl.frame (fun _ => rfl) (fun _ => rfl)
        fun _ updates => updates
    refine coverage.restatus state.orderly.phased phasedNext control
      (same.trans (unchanged rfl rfl)) rfl (by simp [Task.control])
      (by rw [work]; rfl) ?_ ?_ ?_ ?_
    · intro awake
      cases awake
    · rw [blocked]
      intro releasing
      cases releasing
    · rw [blocked]
      exact fun _ => rfl
    · intro link region member
      simp [Task.control] at member

/-! ## A new task -/

/-- The accesses of a new task have no subaccesses. -/
theorem footprint_newTask {child : TaskId} (parent : TaskId)
    {accesses : IntervalMap DataAccess} (mustDelayRelease : Bool)
    (declared : ∀ piece ∈ accesses.pieces, piece.value.IsDeclared child)
    (address : Nat) :
    ∃ type : Option DataAccessType,
      (newTask parent accesses mustDelayRelease).footprint address =
        ⟨type.map fun type => (type, false), false, false, none⟩ := by
  refine ⟨(accesses.lookup address).map DataAccess.type, ?_⟩
  have access : ((newTask parent accesses mustDelayRelease).objects
      .accesses) = accesses := by
    simp [newTask]
  have plain : (accesses.lookup address).map
      (fun access => (access.type, access.hasSubaccesses)) =
      ((accesses.lookup address).map DataAccess.type).map
        fun type => (type, false) := by
    cases found : accesses.lookup address with
    | none => rfl
    | some value =>
        obtain ⟨piece, member, -, rfl⟩ :=
          accesses.lookup_eq_some.mp found
        obtain ⟨type, weak, index, symbols, cpus, value⟩ :=
          declared piece member
        rw [value]
        rfl
  simp only [Task.footprint, access, plain]
  rfl

theorem submitTask (coverage : CoverageState system)
    (state : SoundState system) {parent child : TaskId}
    {declarations : List AccessDeclaration} {mustDelayRelease : Bool}
    (nests : ∀ accesses, registerDepinfo child declarations = some accesses →
      ∀ piece ∈ accesses.pieces, (system.task parent).Nests piece.interval)
    (submitted :
      Nanos6.submitTask system parent child declarations mustDelayRelease =
        some next) : CoverageState next := by
  obtain ⟨covered, taskwaits⟩ := coverage
  obtain ⟨can, unborn, differ, accesses, declared, rfl⟩ :=
    submitTask_eq_some submitted
  have lineage := state.wellFormed.lineage
  obtain ⟨orphan, -⟩ := lineage.unborn child unborn
  change (system.task child).parent = none at orphan
  obtain ⟨next, nextIs⟩ : ∃ next, next =
      (system.modifyTask parent
        (Task.addChild child accesses)).modifyTask child
          fun _ => newTask parent accesses mustDelayRelease :=
    ⟨_, rfl⟩
  rw [← nextIs]
  have childIs : next.task child =
      newTask parent accesses mustDelayRelease := by
    rw [nextIs, System.task_modifyTask, if_pos rfl]
  have othersAre : ∀ other, other ≠ child →
      (next.task other).objects = (system.task other).objects ∧
        (next.task other).subaccessBottomMap =
          (system.task other).subaccessBottomMap ∧
        (next.task other).status = (system.task other).status ∧
        (next.task other).work = (system.task other).work ∧
        (next.task other).parent = (system.task other).parent := by
    intro other notChild
    rw [nextIs, System.task_modifyTask, if_neg notChild,
      System.task_modifyTask]
    split
    · rename_i isParent
      rw [isParent]
      exact ⟨rfl, rfl, rfl, rfl, rfl⟩
    · exact ⟨rfl, rfl, rfl, rfl, rfl⟩
  have sameFootprint : ∀ other address, other ≠ child →
      (next.task other).footprint address =
        (system.task other).footprint address := by
    intro other address notChild
    obtain ⟨objects, bottomMap, -⟩ := othersAre other notChild
    simp only [Task.footprint, objects, bottomMap]
  have childFootprint : ∀ address, ∃ type : Option DataAccessType,
      (next.task child).footprint address =
        ⟨type.map fun type => (type, false), false, false, none⟩ := by
    intro address
    rw [childIs]
    exact footprint_newTask parent mustDelayRelease
      (isDeclared_registerDepinfo declared) address
  have childWork : ∀ loop ∈ (next.task child).work,
      loop = .linkTaskAccesses 0 ∨ loop = .processDelayedOperations ∨
        loop = .decreasePredecessors := by
    intro loop member
    rw [childIs] at member
    simp only [newTask] at member
    split at member
    · simpa using member
    · cases member
  have childLinks : Work.linkProgress (next.task child).work = none := by
    rw [childIs]
    simp only [newTask]
    split <;> rfl
  have childStatus : (next.task child).status.waits = false ∧
      (next.task child).status.releases = false := by
    rw [childIs]
    simp only [newTask]
    split <;> exact ⟨rfl, rfl⟩
  have notParent : ∀ other, (system.task other).parent ≠ some child :=
    fun other parentIs =>
      lineage.parent_born other child parentIs unborn
  have openBefore : ∀ other address, next.OpenAt other address →
      other ≠ child ∧ system.OpenAt other address := by
    rintro other address ⟨linking, progress, parentIs, links, inside⟩
    have notChild : linking ≠ child := by
      rintro rfl
      rw [childLinks] at links
      cases links
    obtain ⟨-, -, -, work, sameParent⟩ := othersAre linking notChild
    rw [sameParent] at parentIs
    rw [work] at links
    refine ⟨?_, linking, progress, parentIs, links, inside⟩
    rintro rfl
    exact notParent linking parentIs
  have openAfter : ∀ other address, system.OpenAt other address →
      next.OpenAt other address := by
    rintro other address ⟨linking, progress, parentIs, links, inside⟩
    have notChild : linking ≠ child := by
      rintro rfl
      rw [orphan] at parentIs
      cases parentIs
    obtain ⟨-, -, -, work, sameParent⟩ := othersAre linking notChild
    refine ⟨linking, progress, ?_, ?_, inside⟩
    · rw [sameParent]
      exact parentIs
    · rw [work]
      exact links
  have onlyAccesses : ∀ map, map ≠ .accesses →
      ((next.task child).objects map).pieces = [] := by
    intro map notAccesses
    rw [childIs]
    simp [newTask, notAccesses]
  refine ⟨⟨?_, ?_, ?_, ?_, ?_, ?_, ?_⟩, ⟨?_, ?_, ?_, ?_, ?_⟩⟩
  · intro other address
    by_cases isChild : other = child
    · rw [isChild]
      obtain ⟨type, footprint⟩ := childFootprint address
      rw [footprint]
      cases type <;> rfl
    · rw [sameFootprint other address isChild]
      exact covered.aligned other address
  · intro other address
    by_cases isChild : other = child
    · rw [isChild]
      obtain ⟨type, footprint⟩ := childFootprint address
      rw [footprint]
      intro entry found
      cases found
    · rw [sameFootprint other address isChild]
      exact covered.rooted other address
  · intro other address awake closed
    by_cases isChild : other = child
    · rw [isChild]
      obtain ⟨type, footprint⟩ := childFootprint address
      rw [footprint]
      cases type with
      | none =>
          intro entry found
          cases found
      | some type => exact ⟨rfl, rfl⟩
    · rw [sameFootprint other address isChild]
      rw [(othersAre other isChild).2.2.1] at awake
      exact covered.mapped other address awake
        fun isOpen => closed (openAfter other address isOpen)
  · intro other address isOpen
    obtain ⟨notChild, before⟩ := openBefore other address isOpen
    rw [sameFootprint other address notChild]
    exact covered.opened other address before
  · intro task taskParent registering parentIs piece member
    by_cases isChild : task = child
    · subst isChild
      rw [childIs] at parentIs member
      obtain rfl : parent = taskParent := Option.some.inj parentIs
      have inAccesses : piece ∈ accesses.pieces := by
        simpa [newTask] using member
      exact (nests accesses declared piece inAccesses).mono
        (fun address => by rw [sameFootprint parent address differ.symm])
        (Nat.le_refl _) (Nat.le_refl _)
    · obtain ⟨objects, -, status, -, sameParent⟩ := othersAre task isChild
      rw [status] at registering
      rw [sameParent] at parentIs
      rw [objects] at member
      have parentDiffers : taskParent ≠ child := by
        rintro rfl
        exact notParent task parentIs
      exact (covered.nested task taskParent registering parentIs piece
        member).mono
          (fun address => by
            rw [sameFootprint taskParent address parentDiffers])
          (Nat.le_refl _) (Nat.le_refl _)
  · intro task taskParent progress parentIs links
    have notChild : task ≠ child := by
      rintro rfl
      rw [childLinks] at links
      cases links
    obtain ⟨-, -, -, work, sameParent⟩ := othersAre task notChild
    rw [sameParent] at parentIs
    rw [work] at links
    have parentDiffers : taskParent ≠ child := by
      rintro rfl
      exact notParent task parentIs
    exact (covered.fits task taskParent progress parentIs links).congr
      fun address => by rw [sameFootprint taskParent address parentDiffers]
  · intro other
    by_cases isChild : other = child
    · rw [isChild]
      intro loop member progress same
      rcases childWork loop (List.mem_of_mem_tail member) with
        kind | kind | kind <;> rw [kind] at same <;> cases same
    · rw [(othersAre other isChild).2.2.2.1]
      exact covered.alone other
  · refine taskwaits.kept.congr ?_ ?_ ?_ ?_
    · intro other piece member
      by_cases isChild : other = child
      · rw [isChild, onlyAccesses .taskwaitFragments (by simp)] at member
        cases member
      · rwa [(othersAre other isChild).1] at member
    · intro other map piece member hasSubaccesses
      by_cases isChild : other = child
      · by_contra notAccesses
        rw [isChild, onlyAccesses map notAccesses] at member
        cases member
      · rw [(othersAre other isChild).1] at member
        exact taskwaits.kept.subaccesses other map piece member
          hasSubaccesses
    · intro other some _
      by_cases isChild : other = child
      · have absent :=
          (state.wellFormed.accounted state.sound.asserted child).unborn
            unborn .accesses
        simp [isChild, Task.hasAccesses, absent] at some
      · simp only [Task.hasAccesses, (othersAre other isChild).1]
        exact some
    · intro other updating
      rw [nextIs] at updating
      exact updating
  · intro other awake early
    by_cases isChild : other = child
    · rw [isChild]
      exact onlyAccesses .taskwaitFragments (by simp)
    · obtain ⟨objects, -, status, -⟩ := othersAre other isChild
      rw [status] at awake early
      rw [objects]
      exact taskwaits.absent other awake early
  · intro other waiting piece member
    by_cases isChild : other = child
    · rw [isChild, onlyAccesses .taskwaitFragments (by simp)] at member
      cases member
    · obtain ⟨objects, -, status, -⟩ := othersAre other isChild
      rw [status] at waiting
      rw [objects] at member
      simp only [Task.hasAccesses, objects]
      exact taskwaits.waits other waiting piece member
  · intro other address entry found kind
    by_cases isChild : other = child
    · rw [isChild] at found
      obtain ⟨type, footprint⟩ := childFootprint address
      rw [footprint] at found
      cases found
    · rw [sameFootprint other address isChild] at found
      rw [(othersAre other isChild).2.2.1]
      exact taskwaits.sinks other address entry found kind
  · intro other link region member isTaskwait
    by_cases isChild : other = child
    · rw [isChild] at member
      rcases childWork _ member with kind | kind | kind <;> cases kind
    · obtain ⟨-, -, status, work, -⟩ := othersAre other isChild
      rw [work] at member
      rw [status]
      exact taskwaits.previous other link region member isTaskwait

/-! ## The operations in progress -/

/-- An operation goes on by changing the status of objects. -/
theorem goesOn (coverage : CoverageState system) (phased : Phased system)
    (phasedNext : Phased next)
    (restated : Restated system.LinksTaskwaits system next)
    {work : List Work} (sets : SetsWork system task next work)
    (started : (system.task task).status ≠ .registering)
    (previous : ∀ previous region, .linkToTaskwait previous region ∈ work →
      ∃ region, .linkToTaskwait previous region ∈ (system.task task).work) :
    CoverageState next := by
  refine ⟨?_, ?_⟩
  · refine coverage.covered.restated restated sets.parent ?_ ?_ ?_ ?_
    · intro other
      by_cases isTask : other = task
      · have now : Work.linkProgress (next.task task).work = none := by
          refine (phasedNext task).linkProgress_eq_none ?_
          change (next.task task).status ≠ .registering
          rw [sets.status]
          exact started
        rw [isTask, now]
        exact ((phased task).linkProgress_eq_none started).symm
      · rw [sets.work, if_neg isTask]
    · intro other
      rw [sets.status]
      exact id
    · intro other
      rw [sets.status]
      exact id
    · intro other
      by_cases isTask : other = task
      · rw [isTask]
        refine (phasedNext task).alone ?_
        change (next.task task).status ≠ .registering
        rw [sets.status]
        exact started
      · rw [sets.work, if_neg isTask]
        exact coverage.covered.alone other
  · refine coverage.taskwaits.restates restated sets ?_
    intro link region member isTaskwait
    obtain ⟨before, inWork⟩ := previous link region member
    exact coverage.taskwaits.previous task link before inWork isTaskwait

/-- The loops that follow another one, when none of them links a taskwait
fragment. -/
private theorem previous_of_goesOn {head : Work} {rest loops : List Work}
    (working : (system.task task).work = head :: rest)
    (none : ∀ loop ∈ loops, ∀ previous region,
      loop ≠ .linkToTaskwait previous region) :
    ∀ previous region, .linkToTaskwait previous region ∈ loops ++ rest →
      ∃ region,
        .linkToTaskwait previous region ∈ (system.task task).work := by
  intro link region member
  rcases List.mem_append.mp member with inLoops | inRest
  · exact absurd rfl (none _ inLoops link region)
  · exact ⟨region, by rw [working]; exact List.mem_cons_of_mem _ inRest⟩

/-- The loops that a running task may go through link no taskwait fragment. -/
private theorem noLink_of_running {loops : List Work}
    (allowed : ∀ loop ∈ loops, TaskStatus.running.allows loop = true) :
    ∀ loop ∈ loops, ∀ previous region,
      loop ≠ .linkToTaskwait previous region := by
  rintro loop member link region rfl
  have permitted := allowed _ member
  cases permitted

theorem finalizeFragments (coverage : CoverageState system)
    (state : SoundState system) {low : Nat} {rest : List Work}
    (working : (system.task task).work = .finalizeFragments low :: rest)
    (started : (system.task task).status ≠ .registering)
    (phasedNext : Phased (Nanos6.finalizeFragments system task low rest))
    (clean : (Nanos6.finalizeFragments system task low
      rest).assertionFailed = false) :
    CoverageState (Nanos6.finalizeFragments system task low rest) := by
  have restated : Restated system.LinksTaskwaits system
      (Nanos6.finalizeFragments system task low rest) :=
    restated_finalizeFragments state.wellFormed.accounted clean
  obtain ⟨loops, sets, shape⟩ : ∃ loops, SetsWork system task
      (Nanos6.finalizeFragments system task low rest) (loops ++ rest) ∧
      ∀ loop ∈ loops, ∃ later, loop = .finalizeFragments later := by
    unfold Nanos6.finalizeFragments
    split
    · exact ⟨[], setsWork_setWork system task rfl rest, by simp⟩
    · refine ⟨[.finalizeFragments _], setsWork_setWork system task ?_ _,
        by simp⟩
      split
      · rfl
      · exact System.control_changeObject system task task _ _ _ _
  refine coverage.goesOn state.orderly.phased phasedNext restated sets started
    (previous_of_goesOn working ?_)
  rintro loop member link region rfl
  obtain ⟨later, same⟩ := shape _ member
  cases same

theorem linkToTaskwait (coverage : CoverageState system)
    (state : SoundState system) {link : DataAccessLink}
    {region : DataAccessRegion} {rest : List Work}
    (working : (system.task task).work = .linkToTaskwait link region :: rest)
    (started : (system.task task).status ≠ .registering)
    (linked : Nanos6.linkToTaskwait system task link region rest = some next)
    (phasedNext : Phased next) (clean : next.assertionFailed = false) :
    CoverageState next := by
  have here : .linkToTaskwait link region ∈ (system.task task).work := by
    simp [working]
  have restated : Restated system.LinksTaskwaits system next := by
    refine restated_linkToTaskwait state.wellFormed.accounted ?_ linked clean
    intro isTaskwait
    obtain ⟨own, awake⟩ :=
      coverage.taskwaits.previous task link region here isTaskwait
    rw [own]
    exact Or.inr awake
  obtain ⟨loops, sets, shape⟩ : ∃ loops, SetsWork system task next
      (loops ++ rest) ∧
      ∀ loop ∈ loops, ∃ later, loop = .linkToTaskwait link later := by
    unfold Nanos6.linkToTaskwait at linked
    split at linked
    · cases linked
    · split at linked
      · cases linked
        exact ⟨[], setsWork_setWork system task rfl rest, by simp⟩
      · cases linked
        refine ⟨[.linkToTaskwait link _], setsWork_setWork system task ?_ _,
          by simp⟩
        exact System.control_changeObject system task _ _ _ _ _
  refine coverage.goesOn state.orderly.phased phasedNext restated sets started
    ?_
  intro other otherRegion member
  rcases List.mem_append.mp member with inLoops | inRest
  · obtain ⟨later, same⟩ := shape _ inLoops
    cases same
    exact ⟨region, here⟩
  · exact ⟨otherRegion, by rw [working]; exact List.mem_cons_of_mem _ inRest⟩

/-- The status of objects changes, and the control of no task. -/
theorem restates (coverage : CoverageState system)
    (restated : Restated system.LinksTaskwaits system next)
    (control : next.control = system.control) : CoverageState next := by
  have status : ∀ task, (next.task task).status =
      (system.task task).status :=
    fun task => congrArg Control.status (congrFun control task)
  have work : ∀ task, (next.task task).work = (system.task task).work :=
    fun task => congrArg Control.work (congrFun control task)
  refine ⟨coverage.covered.restated_of_control restated control, ?_⟩
  refine coverage.taskwaits.restated restated ?_ ?_ ?_ ?_
  · intro task awake _
    rwa [status] at awake
  · intro task waiting
    rw [status] at waiting
    exact Or.inl waiting
  · intro task early
    rwa [status] at early
  · intro task
    rw [status, work]
    exact coverage.taskwaits.previous task

theorem linkTaskAccesses (coverage : CoverageState system)
    (state : SoundState system) {low : Nat} {rest : List Work}
    (working : (system.task task).work = .linkTaskAccesses low :: rest)
    (registering : (system.task task).status = .registering)
    (clean : (Nanos6.linkTaskAccesses system task low
      rest).assertionFailed = false) :
    CoverageState (Nanos6.linkTaskAccesses system task low rest) := by
  have accounted := state.wellFormed.accounted
  refine ⟨coverage.covered.linkTaskAccesses accounted working registering
    clean, ?_⟩
  have previous : ∀ link region, .linkToTaskwait link region ∈ rest →
      link.objectType.map = .taskwaitFragments →
        link.task = task ∧ (system.task task).status.waits = false := by
    intro link region member
    refine coverage.taskwaits.previous task link region ?_
    rw [working]
    exact List.mem_cons_of_mem _ member
  revert clean
  unfold Nanos6.linkTaskAccesses
  split
  · intro _
    exact coverage.taskwaits.restates (Restated.refl.setWork task rest)
      (setsWork_setWork system task rfl rest) previous
  · rename_i piece found
    intro clean
    obtain ⟨member, -⟩ := IntervalMap.nextFrom_eq_some _ found
    have asserted : (system.assertionFailed || _ || _) = false := clean
    simp only [Bool.or_eq_false_iff] at asserted
    have restated : Restated system.LinksTaskwaits system _ :=
      restated_register accounted registering member asserted.1.1
    refine coverage.taskwaits.restates (restated.setWork task _)
      (setsWork_setWork system task
        (System.control_changeObject system task task .accesses piece
          piece.interval (Setter.setInBottomMap.andThen .setRegistered)) _) ?_
    intro link region inWork
    simp only [List.mem_cons, reduceCtorEq, false_or] at inWork
    exact previous link region inWork

theorem advance (coverage : CoverageState system) (state : SoundState system)
    (phasedNext : Phased next)
    (meetsObjects : system.meetsObjects task = true)
    (advanced : Nanos6.advance system task = some next)
    (clean : next.assertionFailed = false) : CoverageState next := by
  obtain ⟨head, rest, working, -, -, advances⟩ := advances_of_advance advanced
  obtain ⟨enrolled, lineage, accounted⟩ := state.wellFormed
  have phased := state.orderly.phased
  have registering : head.registers = true →
      (system.task task).status = .registering :=
    fun registers => (enrolled.isRegistering working registers).1
  have started : TaskStatus.registering.allows head = false →
      head ≠ .decreasePredecessors →
        (system.task task).status ≠ .registering := by
    intro other differ status
    have hasStarted := enrolled.hasStarted working other differ
    rw [status] at hasStarted
    cases hasStarted
  cases advances with
  | linkTaskAccesses low =>
      exact coverage.linkTaskAccesses state working (registering rfl) clean
  | replaceMatching parentIs matched =>
      rename_i progress parent
      have differ : parent ≠ task := by
        rintro rfl
        exact lineage.parent_ne parent parentIs
      have linking : Work.linkProgress (system.task task).work =
          some progress := by
        rw [working]
        rfl
      have awake : (system.task parent).status.waits = false := by
        rw [state.orderly.running_of_linkProgress enrolled parentIs linking]
        rfl
      exact ⟨coverage.covered.replaceMatching accounted enrolled state.orderly
          differ working parentIs meetsObjects matched clean,
        coverage.taskwaits.replaceMatching coverage.covered accounted differ
          working parentIs awake meetsObjects matched clean⟩
  | decreasePredecessors =>
      exact coverage.decreasePredecessors phased working
  | enterTaskwait => exact coverage.enterTaskwait phased working phasedNext
  | createTaskwait low =>
      have fits : ∀ entry,
          (system.task task).subaccessBottomMap.nextFrom low = some entry →
          ((system.task task).objects .taskwaitFragments).Fits
            entry.interval :=
        fun entry =>
          Balanced.fits_createTaskwait (state.balanced.tasks task) working
      exact ⟨coverage.covered.createTaskwait phased working fits phasedNext,
        coverage.taskwaits.createTaskwait coverage.covered phased working
          fits⟩
  | createTopLevelSink low =>
      have releasing : (system.task task).status = .releasing := by
        obtain ⟨allowed, -⟩ := phased.loop working (by
          intro status last
          cases status <;> cases last)
        change (system.task task).status.allows _ = true at allowed
        revert allowed
        cases (system.task task).status <;> simp [TaskStatus.allows]
      exact ⟨coverage.covered.createTopLevelSink phased
          (started rfl (by simp)) phasedNext,
        coverage.taskwaits.createTopLevelSink coverage.covered working
          releasing⟩
  | linkToTaskwait linked =>
      exact coverage.linkToTaskwait state working (started rfl (by simp))
        linked phasedNext clean
  | finalizeFragments low =>
      exact coverage.finalizeFragments state working (started rfl (by simp))
        phasedNext clean
  | finalizeAccesses region =>
      obtain ⟨loops, sets, allowed⟩ :=
        goesOn_finalizeAccess system task region rest
      exact coverage.goesOn phased phasedNext
        (restated_finalizeAccess accounted clean) sets
        (started rfl (by simp))
        (previous_of_goesOn working (noLink_of_running (allowed .running rfl)))
  | finalizeFragmentsOf region =>
      obtain ⟨loops, sets, allowed⟩ :=
        goesOn_finalizeFragmentsOf system task region rest
      exact coverage.goesOn phased phasedNext
        (restated_finalizeFragmentsOf accounted clean) sets
        (started rfl (by simp))
        (previous_of_goesOn working (noLink_of_running (allowed .running rfl)))
  | processDelayedOperations =>
      have alone := coverage.covered.alone task
      rw [working] at alone
      refine ⟨coverage.covered.setWork ?_ ?_, ?_⟩
      · rw [working]
        exact Work.linkProgress_of_alone alone
      · exact fun loop member => alone loop (List.mem_of_mem_tail member)
      · refine coverage.taskwaits.restates (Restated.refl.setWork task rest)
          (setsWork_setWork system task rfl rest) ?_
        intro link region member
        refine coverage.taskwaits.previous task link region ?_
        rw [working]
        exact List.mem_cons_of_mem _ member
  | markAsBlocked => exact coverage.markAsBlocked phased working phasedNext
  | exitTaskwait => exact coverage.exitTaskwait state working phasedNext
  | completeWaitClause =>
      exact coverage.completeWaitClause state working phasedNext
  | markAsReleased => exact coverage.markAsReleased phased working phasedNext

end CoverageState

end Nanos6
