import Nanos6.Coverage.CoverageSteps

/-!
# Subaccess coverage

The bottom map and the fragments of a task cover exactly the bytes of its
accesses with subaccesses, in every state of a run in which each access of a
child meets accesses of its parent of one type only.  The end of a taskwait
clears them all.
-/

namespace Nanos6

open Foundation

/-! ## Regular runs -/

/-- Each access of a new task lies in the accesses of its parent as `within`
says. -/
def System.Submits (within : Task → DataAccessRegion → Prop)
    (system : System) : Action → Prop
  | .submit parent child declarations _ =>
      ∀ accesses, registerDepinfo child declarations = some accesses →
        ∀ piece ∈ accesses.pieces, within (system.task parent) piece.interval
  | _ => True

/-- The bottom map of the parent leads to objects where an access of a new task
is matched. -/
def System.Matches (system : System) : Action → Prop
  | .advance task => system.meetsObjects task = true
  | _ => True

/-- A new task nests each of its accesses in accesses of the parent of one type,
or outside of all, and nothing that it is matched with is gone. -/
def System.Admits (system : System) (action : Action) : Prop :=
  system.Submits Task.Nests action ∧ system.Matches action

/-- The action is admitted and leads to a sound state. -/
def Regular (system : System) (action : Action) : Prop :=
  Leads step System.IsSound system action ∧ system.Admits action

namespace CoverageState

variable {system next : System}

/-- Every regular step keeps the coverage. -/
theorem step (coverage : CoverageState system) (state : SoundState system)
    {action : Action} (regular : Regular system action)
    (taken : Nanos6.step system action = some next) :
    CoverageState next := by
  obtain ⟨leads, nests, objects⟩ := regular
  have sound := leads next taken
  have clean := sound.asserted
  have accounted := state.wellFormed.accounted
  have phased := state.orderly.phased
  have phasedNext := (state.orderly_step taken).phased
  have canCall : ∀ task : TaskId, (system.task task).canCall = true →
      (system.task task).status = .running ∧
        (system.task task).work = [] := by
    intro task can
    simp only [Task.canCall, Bool.and_eq_true, beq_iff_eq,
      List.isEmpty_iff] at can
    exact can.1
  cases action with
  | submit parent child declarations mustDelayRelease =>
      exact coverage.submitTask state nests taken
  | start task =>
      simp only [Nanos6.step] at taken
      split at taken
      · rename_i ready
        simp only [Bool.and_eq_true, beq_iff_eq] at ready
        cases taken
        have idle : ∀ link region,
            .linkToTaskwait link region ∉ (system.task task).work := by
          intro link region member
          obtain ⟨loops, work, allowed⟩ := phased task
          change (system.task task).work = _ at work
          rw [work] at member
          change .linkToTaskwait link region ∈
            loops ++ (system.task task).status.last at member
          rw [ready.1] at member
          rcases List.mem_append.mp member with inLoops | inLast
          · have wrong := allowed _ inLoops
            change (system.task task).status.allows _ = true at wrong
            rw [ready.1] at wrong
            cases wrong
          · cases inLast
        exact coverage.begins phased phasedNext (Or.inl ready.1)
          ⟨by simp, rfl⟩ idle
      · cases taken
  | taskwait task =>
      simp only [Nanos6.step, Nanos6.enterTaskwait] at taken
      split at taken
      · cases taken
      · rename_i can
        simp only [Bool.not_eq_true', Bool.not_eq_false] at can
        split at taken
        · split at taken
          · cases taken
          · cases taken
            exact coverage
        · cases taken
          exact coverage.begins phased phasedNext
            (Or.inr (Or.inl (canCall task can).1)) ⟨by simp, rfl⟩ (by simp)
  | release task region =>
      simp only [Nanos6.step, releaseAccessRegion] at taken
      split at taken
      · rename_i can
        cases taken
        refine coverage.goesOn phased phasedNext
          (Restated.refl.setWork task _)
          (setsWork_setWork system task rfl _) ?_ ?_
        · rw [(canCall task can).1]
          simp
        · intro link other member
          simp at member
      · cases taken
  | finish task =>
      simp only [Nanos6.step, markAsFinished] at taken
      split at taken
      · cases taken
      · rename_i can
        simp only [Bool.not_eq_true', Bool.not_eq_false] at can
        obtain ⟨running, idle⟩ := canCall task can
        split at taken
        · cases taken
          exact coverage.begins phased phasedNext (Or.inr (Or.inl running))
            ⟨by simp, rfl⟩ (by simp)
        · cases taken
          exact coverage.begins phased phasedNext (Or.inr (Or.inl running))
            ⟨by simp, rfl⟩ (by rw [idle]; simp)
  | unregister task =>
      simp only [Nanos6.step, unregisterTaskDataAccesses] at taken
      split at taken
      · rename_i finished
        rw [beq_iff_eq] at finished
        cases taken
        exact coverage.begins phased phasedNext (Or.inr (Or.inr finished))
          ⟨by simp, rfl⟩ (by simp)
      · cases taken
  | advance task =>
      exact coverage.advance state phasedNext objects taken clean
  | bottomMapUpdate index =>
      refine coverage.restates ?_
        (control_processBottomMapUpdate system index taken)
      exact restated_processBottomMapUpdate accounted coverage.taskwaits.kept
        (fun _ accesses => Or.inl accesses) coverage.covered.rooted taken
        clean
  | delayedOperation index =>
      exact coverage.restates
        (restated_processUpdateOperation accounted taken clean)
        (control_processUpdateOperation system index taken)
  | disposeOrUnblock index =>
      exact coverage.disposeOrUnblockTask state taken phasedNext

theorem initial (main : TaskId) : CoverageState (initialSystem main) := by
  have objects : ∀ task,
      ((initialSystem main).task task).objects = fun _ => .empty := by
    intro task
    simp only [initialSystem]
    split <;> rfl
  have bottomMap : ∀ task,
      ((initialSystem main).task task).subaccessBottomMap = .empty := by
    intro task
    simp only [initialSystem]
    split <;> rfl
  have work : ∀ task, ((initialSystem main).task task).work = [] := by
    intro task
    simp only [initialSystem]
    split <;> rfl
  have parent : ∀ task, ((initialSystem main).task task).parent = none := by
    intro task
    simp only [initialSystem]
    split <;> rfl
  have nothing : ∀ task address,
      ((initialSystem main).task task).footprint address =
        ⟨none, false, false, none⟩ := by
    intro task address
    simp only [Task.footprint, objects, bottomMap]
    rfl
  refine ⟨⟨?_, ?_, ?_, ?_, ?_, ?_, ?_⟩, ⟨⟨?_, ?_, ?_⟩, ?_, ?_, ?_, ?_⟩⟩
  · intro task address
    rw [nothing]
    rfl
  · intro task address entry found
    rw [nothing] at found
    cases found
  · intro task address _ _
    rw [nothing]
    intro entry found
    cases found
  · rintro task address ⟨child, progress, parentIs, -⟩
    rw [parent] at parentIs
    cases parentIs
  · intro child parentTask _ parentIs
    rw [parent] at parentIs
    cases parentIs
  · intro child parentTask progress parentIs
    rw [parent] at parentIs
    cases parentIs
  · intro task loop member
    rw [work] at member
    cases member
  · intro task piece member
    rw [objects] at member
    cases member
  · intro task map piece member
    rw [objects] at member
    cases member
  · intro task updating
    cases updating
  · intro task _ _
    rw [objects]
    rfl
  · intro task _ piece member
    rw [objects] at member
    cases member
  · intro task address entry found
    rw [nothing] at found
    cases found
  · intro task link region member
    rw [work] at member
    cases member

theorem of_reaches {main : TaskId} (reached : Reaches Regular main system) :
    CoverageState system := by
  have sound : ∀ state, Reaches Regular main state → SoundState state :=
    fun state before =>
      SoundState.of_reaches (before.mono fun _ _ regular => regular.1)
  refine Run.invariant_with reached sound (initial main) ?_
  intro state action after isSound _ coverage regular taken
  exact coverage.step isSound regular taken

end CoverageState

/-! ## Coverage of the subaccesses -/

/-- The bottom map and the fragments of a task cover the bytes of its accesses
with subaccesses, once, and no other byte of its accesses. -/
structure Task.SubaccessesCovered (task : Task) : Prop where
  entry : ∀ access ∈ (task.objects .accesses).pieces,
    access.value.hasSubaccesses = true → ∀ address ∈ access.interval,
      ∃ entry ∈ task.subaccessBottomMap.pieces,
        address ∈ entry.interval ∧
          entry.value.accessType = access.value.type ∧
          ∀ other ∈ task.subaccessBottomMap.pieces,
            address ∈ other.interval → other = entry
  fragment : ∀ access ∈ (task.objects .accesses).pieces,
    access.value.hasSubaccesses = true → ∀ address ∈ access.interval,
      ∃ fragment ∈ (task.objects .accessFragments).pieces,
        address ∈ fragment.interval ∧
          ∀ other ∈ (task.objects .accessFragments).pieces,
            address ∈ other.interval → other = fragment
  plain : ∀ access ∈ (task.objects .accesses).pieces,
    access.value.hasSubaccesses = false → ∀ address ∈ access.interval,
      (∀ entry ∈ task.subaccessBottomMap.pieces,
          address ∉ entry.interval) ∧
        ∀ fragment ∈ (task.objects .accessFragments).pieces,
          address ∉ fragment.interval
  outside : ∀ address,
    (∀ access ∈ (task.objects .accesses).pieces,
      address ∉ access.interval) →
      ∀ entry ∈ task.subaccessBottomMap.pieces,
        address ∈ entry.interval → entry.value.accessType = .noAccess

/-- Nothing is left of the children of a task. -/
structure Task.SubaccessesCleared (task : Task) : Prop where
  accesses : ∀ access ∈ (task.objects .accesses).pieces,
    access.value.hasSubaccesses = false
  fragments : (task.objects .accessFragments).pieces = []
  taskwaits : (task.objects .taskwaitFragments).pieces = []
  bottomMap : task.subaccessBottomMap.pieces = []

/-- The footprints of all bytes say what covers an access. -/
theorem subaccessesCovered_of_footprint {task : Task}
    (aligned : ∀ address, (task.footprint address).Aligned)
    (mapped : ∀ address, (task.footprint address).Mapped) :
    task.SubaccessesCovered := by
  have here : ∀ access ∈ (task.objects .accesses).pieces,
      ∀ address ∈ access.interval, (task.footprint address).access =
        some (access.value.type, access.value.hasSubaccesses) := by
    intro access member address inside
    simp only [Task.footprint, IntervalMap.lookup_of_mem _ member inside]
    rfl
  refine ⟨?_, ?_, ?_, ?_⟩
  · intro access member hasSubaccesses address inside
    have isMapped := mapped address
    unfold Footprint.Mapped at isMapped
    rw [here access member address inside, hasSubaccesses] at isMapped
    obtain ⟨value, found, type⟩ := Option.map_eq_some_iff.mp isMapped.1
    obtain ⟨entry, entryMember, entryInside, rfl⟩ :=
      (IntervalMap.lookup_eq_some _).mp found
    exact ⟨entry, entryMember, entryInside, type,
      fun other otherMember otherInside =>
        IntervalMap.eq_of_mem _ otherMember entryMember otherInside
          entryInside⟩
  · intro access member hasSubaccesses address inside
    have isAligned := aligned address
    unfold Footprint.Aligned at isAligned
    rw [here access member address inside, hasSubaccesses] at isAligned
    obtain ⟨value, found⟩ := Option.isSome_iff_exists.mp isAligned.1
    obtain ⟨fragment, fragmentMember, fragmentInside, -⟩ :=
      (IntervalMap.lookup_eq_some _).mp found
    exact ⟨fragment, fragmentMember, fragmentInside,
      fun other otherMember otherInside =>
        IntervalMap.eq_of_mem _ otherMember fragmentMember otherInside
          fragmentInside⟩
  · intro access member plain address inside
    have isMapped := mapped address
    have isAligned := aligned address
    unfold Footprint.Mapped at isMapped
    unfold Footprint.Aligned at isAligned
    rw [here access member address inside, plain] at isMapped isAligned
    refine ⟨?_, ?_⟩
    · exact (IntervalMap.lookup_eq_none _).mp isMapped.1
    · refine (IntervalMap.lookup_eq_none _).mp ?_
      simpa [Task.footprint] using isAligned
  · intro address outside entry member inside
    have isMapped := mapped address
    have absent : (task.footprint address).access = none := by
      simp only [Task.footprint,
        (IntervalMap.lookup_eq_none _).mpr outside]
      rfl
    unfold Footprint.Mapped at isMapped
    rw [absent] at isMapped
    exact isMapped entry.value (IntervalMap.lookup_of_mem _ member inside)

/-! ## The end of a taskwait -/

section Awakes

variable {system next : System} {task : TaskId}

/-- A change of the control of one task by which no task stops waiting. -/
private theorem not_awakes
    (waiting : (system.task task).status.waits = true)
    (awake : (next.task task).status.waits = false) {acting : TaskId}
    {control : Control}
    (changed : next.control = Function.update system.control acting control)
    (goes : control.status.waits = true ∨
      (system.task acting).status.waits = false) : False := by
  have equality := congrFun changed task
  by_cases same : task = acting
  · subst same
    rw [Function.update_self] at equality
    have status : (next.task task).status = control.status :=
      congrArg Control.status equality
    rw [status] at awake
    rcases goes with goes | goes
    · rw [goes] at awake
      cases awake
    · rw [goes] at waiting
      cases waiting
  · rw [Function.update_of_ne same] at equality
    have status : (next.task task).status = (system.task task).status :=
      congrArg Control.status equality
    rw [status, waiting] at awake
    cases awake

/-- An operation that goes on changes no status. -/
private theorem not_awakes_of_goesOn
    (waiting : (system.task task).status.waits = true)
    (awake : (next.task task).status.waits = false) {acting : TaskId}
    {head : Work} {rest : List Work}
    (goes : GoesOn system acting head rest next) : False := by
  obtain ⟨loops, sets, -⟩ := goes
  rw [sets.status, waiting] at awake
  cases awake

private theorem not_awakes_of_control
    (waiting : (system.task task).status.waits = true)
    (awake : (next.task task).status.waits = false)
    (same : next.control = system.control) : False := by
  have status : (next.task task).status = (system.task task).status :=
    congrArg Control.status (congrFun same task)
  rw [status, waiting] at awake
  cases awake

/-- The task that stops waiting is the one whose control changes. -/
private theorem eq_of_awakes
    (waiting : (system.task task).status.waits = true)
    (awake : (next.task task).status.waits = false) {acting : TaskId}
    {control : Control}
    (changed : next.control = Function.update system.control acting control) :
    task = acting := by
  by_contra differ
  have equality := congrFun changed task
  rw [Function.update_of_ne differ] at equality
  have status : (next.task task).status = (system.task task).status :=
    congrArg Control.status equality
  rw [status, waiting] at awake
  cases awake

/-- A wait clause that is over when `markAsFinished` checks it. -/
private theorem completeWaitClause_of_awakes (state : SoundState system)
    {acting : TaskId}
    (status : (system.task acting).status = .inWaitClause)
    (waiting : (system.task task).status.waits = true)
    (awake : ((completeWaitClause system acting []).task
      task).status.waits = false) :
    Exits system (completeWaitClause system acting []) task ∧
      (system.task task).counters.liveTaskwaitFragmentCount = 0 := by
  obtain ⟨change, changeIs⟩ : ∃ change : Task → Task, change = fun current =>
      { current with
        counters :=
          (system.task acting).counters.decreaseRemovalBlockingCount.1
        status := .waitClausePending
        work := [] } :=
    ⟨_, rfl⟩
  have result : completeWaitClause system acting [] =
      if (system.task acting).counters.countdownToBeWokenUp - 1 == 0 then
        completeDelayedRelease (system.modifyTask acting change) acting
      else system.modifyTask acting change := by
    rw [changeIs]
    rfl
  rw [result] at awake ⊢
  split at awake
  · rename_i done
    rw [if_pos done]
    rw [beq_iff_eq] at done
    have changed :=
      control_completeDelayedRelease (system.modifyTask acting change) acting
    rw [System.control_modifyTask, Function.update_idem] at changed
    obtain rfl := eq_of_awakes waiting awake changed
    obtain ⟨-, isOver⟩ := Balanced.balance_over (state.balanced.tasks task)
      (state.sound.tasks task) (by rw [status]; rfl)
      (by
        rw [status]
        simp only [TaskStatus.holdsBody, if_true]
        omega)
    refine ⟨exits_completeDelayedRelease ?_ ?_ fun _ => rfl,
      (Balanced.noneLive_of_over isOver).2⟩
    · intro other
      rw [System.task_modifyTask]
      split
      · rename_i same
        rw [same, changeIs]
      · rfl
    · intro other
      rw [System.task_modifyTask]
      split
      · rename_i same
        rw [same, changeIs]
      · rfl
  · refine (not_awakes waiting awake
      (System.control_modifyTask system acting change) (Or.inl ?_)).elim
    rw [changeIs]
    rfl

/-- A task stops waiting by `handleExitTaskwait`, and when none of its taskwait
fragments is live. -/
theorem exits_of_awakes (state : SoundState system) {action : Action}
    (taken : step system action = some next)
    (waiting : (system.task task).status.waits = true)
    (awake : (next.task task).status.waits = false) :
    Exits system next task ∧
      (system.task task).counters.liveTaskwaitFragmentCount = 0 := by
  have phased := state.orderly.phased
  have notCalling : ∀ acting : TaskId,
      (system.task acting).canCall = true →
        (system.task acting).status.waits = false := by
    intro acting can
    simp only [Task.canCall, Bool.and_eq_true, beq_iff_eq] at can
    rw [can.1.1]
    rfl
  cases action with
  | submit parent child declarations mustDelayRelease =>
      exfalso
      obtain ⟨can, unborn, differ, accesses, -, rfl⟩ :=
        submitTask_eq_some taken
      rw [System.task_modifyTask] at awake
      split at awake
      · rename_i isChild
        rw [isChild, unborn] at waiting
        cases waiting
      · rw [System.task_modifyTask] at awake
        split at awake
        · rename_i isParent
          have status : (system.task parent).status.waits = false :=
            notCalling parent can
          rw [isParent, status] at waiting
          cases waiting
        · rw [waiting] at awake
          cases awake
  | start acting =>
      exfalso
      simp only [step] at taken
      split at taken
      · rename_i ready
        simp only [Bool.and_eq_true, beq_iff_eq] at ready
        cases taken
        exact not_awakes waiting awake (System.control_modifyTask _ _ _)
          (Or.inr (by rw [ready.1]; rfl))
      · cases taken
  | taskwait acting =>
      exfalso
      simp only [step, enterTaskwait] at taken
      split at taken
      · cases taken
      · rename_i can
        simp only [Bool.not_eq_true', Bool.not_eq_false] at can
        split at taken
        · split at taken
          · cases taken
          · cases taken
            rw [waiting] at awake
            cases awake
        · cases taken
          exact not_awakes waiting awake (System.control_modifyTask _ _ _)
            (Or.inr (notCalling acting can))
  | release acting region =>
      exfalso
      simp only [step, releaseAccessRegion] at taken
      split at taken
      · rename_i can
        cases taken
        exact not_awakes waiting awake (System.control_modifyTask _ _ _)
          (Or.inr (notCalling acting can))
      · cases taken
  | finish acting =>
      exfalso
      simp only [step, markAsFinished] at taken
      split at taken
      · cases taken
      · rename_i can
        simp only [Bool.not_eq_true', Bool.not_eq_false] at can
        split at taken <;> cases taken <;>
          exact not_awakes waiting awake (System.control_modifyTask _ _ _)
            (Or.inr (notCalling acting can))
  | unregister acting =>
      exfalso
      simp only [step, unregisterTaskDataAccesses] at taken
      split at taken
      · rename_i finished
        rw [beq_iff_eq] at finished
        cases taken
        exact not_awakes waiting awake (System.control_modifyTask _ _ _)
          (Or.inr (by rw [finished]; rfl))
      · cases taken
  | advance acting =>
      obtain ⟨head, rest, working, -, -, advances⟩ := advances_of_advance taken
      cases advances with
      | linkTaskAccesses low =>
          exact (not_awakes_of_goesOn waiting awake
            (goesOn_linkTaskAccesses system acting low rest)).elim
      | replaceMatching parentIs matched =>
          exact (not_awakes_of_goesOn waiting awake
            (goesOn_replaceMatchingInBottomMap system acting _ _ rest
              matched)).elim
      | decreasePredecessors =>
          exfalso
          obtain ⟨status, -⟩ := phased.atDecreasePredecessors working
          have isActing : task ≠ acting := by
            rintro rfl
            rw [status] at waiting
            cases waiting
          have same : (((Nanos6.decreasePredecessors system acting
              rest).task task).status) = (system.task task).status := by
            unfold Nanos6.decreasePredecessors
            dsimp only
            split
            · rw [System.task_modifyTask, if_neg isActing]
            · rw [System.task_modifyTask]
              split
              · rename_i isParent
                rw [← isParent, System.task_modifyTask, if_neg isActing]
              · rw [System.task_modifyTask, if_neg isActing]
          rw [same, waiting] at awake
          cases awake
      | enterTaskwait =>
          obtain ⟨loops, changed, -⟩ :=
            control_handleEnterTaskwait system acting rest
          refine (not_awakes waiting awake changed (Or.inr ?_)).elim
          rcases phased.atEnterTaskwait working with
            ⟨status, -⟩ | ⟨status, -⟩ <;> rw [status] <;> rfl
      | createTaskwait low =>
          exact (not_awakes_of_goesOn waiting awake
            (goesOn_createTaskwait system acting low rest)).elim
      | createTopLevelSink low =>
          exact (not_awakes_of_goesOn waiting awake
            (goesOn_createTopLevelSink system acting low rest)).elim
      | linkToTaskwait linked =>
          exact (not_awakes_of_goesOn waiting awake
            (goesOn_linkToTaskwait system acting _ _ rest linked)).elim
      | finalizeFragments low =>
          exact (not_awakes_of_goesOn waiting awake
            (goesOn_finalizeFragments system acting low rest)).elim
      | finalizeAccesses region =>
          exact (not_awakes_of_goesOn waiting awake
            (goesOn_finalizeAccess system acting region rest)).elim
      | finalizeFragmentsOf region =>
          exact (not_awakes_of_goesOn waiting awake
            (goesOn_finalizeFragmentsOf system acting region rest)).elim
      | processDelayedOperations =>
          exact (not_awakes_of_goesOn waiting awake
            ((setsWork_setWork system acting rfl rest).ends
              .processDelayedOperations)).elim
      | markAsBlocked =>
          obtain ⟨done, changed⟩ := control_markAsBlocked system acting rest
          refine (not_awakes waiting awake changed (Or.inl ?_)).elim
          cases done <;> rfl
      | exitTaskwait =>
          obtain ⟨status, rfl⟩ := phased.atExitTaskwait working
          obtain rfl := eq_of_awakes waiting awake
            (control_exitTaskwait system acting [])
          exact ⟨exits_exitTaskwait system task [],
            ((state.balanced.tasks task).leaving status).2.1⟩
      | completeWaitClause =>
          obtain ⟨status, rfl⟩ := phased.atCompleteWaitClause working
          exact completeWaitClause_of_awakes state status waiting awake
      | markAsReleased =>
          obtain ⟨status, rfl⟩ := phased.atMarkAsReleased working
          refine (not_awakes waiting awake
            (control_markAsReleased system acting []) (Or.inr ?_)).elim
          rw [status]
          rfl
  | bottomMapUpdate index =>
      exact (not_awakes_of_control waiting awake
        (control_processBottomMapUpdate system index taken)).elim
  | delayedOperation index =>
      exact (not_awakes_of_control waiting awake
        (control_processUpdateOperation system index taken)).elim
  | disposeOrUnblock index =>
      obtain ⟨removed, found, work, -, called⟩ :=
        state.balanced.disposals state.orderly taken
      obtain ⟨-, low⟩ :=
        state.balanced.pending removed (List.mem_of_getElem? found)
      rcases called with ⟨status, rfl⟩ | ⟨status, rfl⟩ | ⟨blocked, rfl⟩
      · obtain rfl := eq_of_awakes waiting awake
          (control_completeDelayedRelease
            { system with
              pendingDisposals := system.pendingDisposals.eraseIdx index }
            removed)
        obtain ⟨-, isOver⟩ := Balanced.balance_over
          (state.balanced.tasks task) (state.sound.tasks task)
          (by rw [status]; rfl) (by rw [status]; exact low)
        exact ⟨exits_completeDelayedRelease (fun _ => rfl) (fun _ => rfl)
            fun _ => rfl,
          (Balanced.noneLive_of_over isOver).2⟩
      · refine (not_awakes waiting awake
          (control_disposeTask
            { system with
              pendingDisposals := system.pendingDisposals.eraseIdx index }
            removed) (Or.inr ?_)).elim
        rw [status]
        rfl
      · exact (not_awakes waiting awake (System.control_modifyTask _ _ _)
          (Or.inl rfl)).elim

end Awakes

/-- After `handleExitTaskwait` nothing is left of the children. -/
theorem CoverageState.cleared {system next : System} {task : TaskId}
    (coverage : CoverageState system) (state : SoundState system)
    (exits : Exits system next task)
    (waiting : (system.task task).status.waits = true)
    (noneLive :
      (system.task task).counters.liveTaskwaitFragmentCount = 0) :
    (next.task task).SubaccessesCleared := by
  have bottomMap : (next.task task).subaccessBottomMap.pieces = [] := by
    rw [exits.bottomMap]
    rfl
  cases accesses : (system.task task).hasAccesses with
  | false =>
      have same := exits.untouched accesses
      have noAccess : ((system.task task).objects .accesses).pieces = [] := by
        simpa [Task.hasAccesses] using accesses
      refine ⟨?_, ?_, ?_, bottomMap⟩
      · intro access member
        rw [same, noAccess] at member
        cases member
      · rw [same, List.eq_nil_iff_forall_not_mem]
        intro fragment member
        have inside : fragment.interval.start ∈ fragment.interval :=
          ⟨Nat.le_refl _, IntervalMap.nonempty _ fragment member⟩
        have aligned :=
          coverage.covered.aligned task fragment.interval.start
        have absent : ((system.task task).footprint
            fragment.interval.start).access = none := by
          simp [Task.footprint, IntervalMap.lookup, noAccess]
        unfold Footprint.Aligned at aligned
        rw [absent] at aligned
        simp [Task.footprint, IntervalMap.lookup_of_mem _ member inside]
          at aligned
      · rw [same]
        exact coverage.taskwaits.noneLeft (state.balanced.tasks task) waiting
          noneLive accesses
  | true =>
      obtain ⟨cleared, empty⟩ := exits.cleared accesses
      refine ⟨?_, ?_, ?_, bottomMap⟩
      · intro access member
        rw [cleared] at member
        obtain ⟨old, -, rfl⟩ := (IntervalMap.mem_mapValues _).mp member
        rfl
      · rw [empty _ (by simp)]
        rfl
      · rw [empty _ (by simp)]
        rfl

/-- A task whose lock is free is not matching an access of a child. -/
theorem closed_of_unlocked {system : System} (orderly : Orderly system)
    (enrolled : Enrolled system) {task : TaskId}
    (unlocked : system.locked task = false) (address : Nat) :
    ¬ system.OpenAt task address := by
  rintro ⟨child, progress, parentIs, linking, -⟩
  obtain ⟨parent, isParent, registers⟩ :=
    orderly.registers child (enrolled.registering_of_linkProgress linking)
  have same : (system.task child).parent = some parent := isParent
  rw [parentIs] at same
  obtain rfl := Option.some.inj same
  have registering : (system.task task).registeringChild = some child :=
    registers
  have isLinking : (system.task child).isLinking = true := by
    unfold Work.linkProgress at linking
    split at linking
    · rename_i working
      simp [Task.isLinking, working]
    · cases linking
  simp [System.locked, registering, isLinking] at unlocked

/-- In every state of a regular run, a task whose lock is free and that does
not wait has its subaccesses covered; when a task stops waiting, nothing is
left of them. -/
theorem subaccessesCovered_of_run {main : TaskId} {system : System}
    (reached : Reaches Regular main system) :
    (∀ task, system.locked task = false →
      (system.task task).status.waits = false →
        (system.task task).SubaccessesCovered) ∧
      ∀ action next task, step system action = some next →
        (system.task task).status.waits = true →
        (next.task task).status.waits = false →
          (next.task task).SubaccessesCleared := by
  have state : SoundState system :=
    SoundState.of_reaches (reached.mono fun _ _ regular => regular.1)
  have coverage := CoverageState.of_reaches reached
  refine ⟨?_, ?_⟩
  · intro task unlocked awake
    refine subaccessesCovered_of_footprint (coverage.covered.aligned task) ?_
    intro address
    exact coverage.covered.mapped task address awake
      (closed_of_unlocked state.orderly state.wellFormed.enrolled unlocked
        address)
  · intro action next task taken waiting awake
    obtain ⟨exits, noneLive⟩ := exits_of_awakes state taken waiting awake
    exact coverage.cleared state exits waiting noneLive

/-! ## Executing regular runs -/

instance (task : Task) (region : DataAccessRegion) :
    Decidable (task.Nests region) :=
  decidable_of_iff
    (region.stop ≤ region.start ∨
      ((task.footprint region.start).accessType ≠ some .noAccess ∧
        ∀ address < region.stop, region.start ≤ address →
          (task.footprint address).accessType =
            (task.footprint region.start).accessType))
    ⟨by
      rintro (empty | ⟨proper, same⟩)
      · refine Or.inr fun address inside => ?_
        simp only [Interval.mem_iff] at inside
        omega
      · cases type : (task.footprint region.start).accessType with
        | none =>
            refine Or.inr fun address inside => ?_
            rw [same address inside.2 inside.1, type]
        | some type' =>
            refine Or.inl ⟨type', ?_, fun address inside => ?_⟩
            · rintro rfl
              exact proper type
            · rw [same address inside.2 inside.1, type],
    by
      intro nests
      rcases Nat.lt_or_ge region.start region.stop with positive | empty
      · refine Or.inr ?_
        have inside : region.start ∈ region := ⟨Nat.le_refl _, positive⟩
        rcases nests with ⟨type, proper, same⟩ | none
        · rw [same _ inside]
          refine ⟨fun equal => proper (Option.some.inj equal), ?_⟩
          exact fun address below above => same address ⟨above, below⟩
        · rw [none _ inside]
          exact ⟨by simp, fun address below above => none address ⟨above, below⟩⟩
      · exact Or.inl empty⟩

instance (within : Task → DataAccessRegion → Prop)
    [∀ task region, Decidable (within task region)] (system : System)
    (action : Action) : Decidable (system.Submits within action) :=
  match action with
  | .submit parent child declarations _ =>
      match declared : registerDepinfo child declarations with
      | none => isTrue fun accesses found => by
          rw [declared] at found
          cases found
      | some accesses =>
          decidable_of_iff
            (∀ piece ∈ accesses.pieces,
              within (system.task parent) piece.interval)
            ⟨fun inside found equal => by
                rw [declared] at equal
                cases equal
                exact inside,
              fun inside => inside accesses declared⟩
  | .start _ => isTrue trivial
  | .taskwait _ => isTrue trivial
  | .release _ _ => isTrue trivial
  | .finish _ => isTrue trivial
  | .unregister _ => isTrue trivial
  | .advance _ => isTrue trivial
  | .bottomMapUpdate _ => isTrue trivial
  | .delayedOperation _ => isTrue trivial
  | .disposeOrUnblock _ => isTrue trivial

instance (system : System) (action : Action) :
    Decidable (system.Matches action) :=
  match action with
  | .advance task =>
      inferInstanceAs (Decidable (system.meetsObjects task = true))
  | .submit _ _ _ _ => isTrue trivial
  | .start _ => isTrue trivial
  | .taskwait _ => isTrue trivial
  | .release _ _ => isTrue trivial
  | .finish _ => isTrue trivial
  | .unregister _ => isTrue trivial
  | .bottomMapUpdate _ => isTrue trivial
  | .delayedOperation _ => isTrue trivial
  | .disposeOrUnblock _ => isTrue trivial

instance (system : System) (action : Action) :
    Decidable (system.Admits action) :=
  inferInstanceAs (Decidable (_ ∧ _))

/-- A task over `[0, 1)` with a child over the same region: its access has a
subaccess when the child is registered, and none after the taskwait. -/
theorem subaccessesCovered_one_child :
    (∃ system, Reaches Regular 0 system ∧
      (∃ access ∈ ((system.task 1).objects .accesses).pieces,
        access.value.hasSubaccesses = true) ∧
      (system.task 1).SubaccessesCovered) ∧
    ∃ system next, Reaches Regular 0 system ∧
      step system (.advance 1) = some next ∧
      (system.task 1).status.waits = true ∧
      (next.task 1).SubaccessesCleared := by
  refine ⟨?_, ?_⟩
  · obtain ⟨system, reached, unlocked, awake, access⟩ :=
      reaches_of_executeThrough 3 0 (waitForOneChild.take 17)
        System.Admits
        (fun system => system.locked 1 = false ∧
          (system.task 1).status.waits = false ∧
          ∃ access ∈ ((system.task 1).objects .accesses).pieces,
            access.value.hasSubaccesses = true)
        (by decide) (by decide) (by decide +kernel)
    exact ⟨system, reached, access,
      (subaccessesCovered_of_run reached).1 1 unlocked awake⟩
  · obtain ⟨system, reached, waiting, leaves⟩ :=
      reaches_of_executeThrough 3 0
        (waitForOneChild ++ [.disposeOrUnblock 0, .disposeOrUnblock 0])
        System.Admits
        (fun system => (system.task 1).status.waits = true ∧
          (step system (.advance 1)).any
            (fun next => !(next.task 1).status.waits) = true)
        (by decide) (by decide) (by decide +kernel)
    obtain ⟨next, taken, awake⟩ := (Option.any_eq_true _ _).mp leaves
    rw [Bool.not_eq_true'] at awake
    exact ⟨system, next, reached, taken, waiting,
      (subaccessesCovered_of_run reached).2 _ next 1 taken waiting awake⟩

/-- The region lies inside of the accesses of the task or outside of all. -/
def Task.Encloses (task : Task) (region : DataAccessRegion) : Prop :=
  (∀ address ∈ region, (task.footprint address).accessType ≠ none) ∨
    ∀ address ∈ region, (task.footprint address).accessType = none

instance (task : Task) (region : DataAccessRegion) :
    Decidable (task.Encloses region) :=
  decidable_of_iff
    ((∀ address < region.stop, region.start ≤ address →
        (task.footprint address).accessType ≠ none) ∨
      ∀ address < region.stop, region.start ≤ address →
        (task.footprint address).accessType = none)
    (or_congr
      ⟨fun all address inside => all address inside.2 inside.1,
        fun all address below above => all address ⟨above, below⟩⟩
      ⟨fun all address inside => all address inside.2 inside.1,
        fun all address below above => all address ⟨above, below⟩⟩)

/-- A task reads `[0, 4)` and writes `[4, 8)`, and its child reads `[0, 8)`.
The child gets one entry for its whole region, with the type of the access that
has been matched last. -/
theorem subaccessesCovered_fails :
    ∃ system,
      Reaches (fun system action => Leads step System.IsSound system action ∧
        system.Submits Task.Encloses action ∧ system.Matches action) 0
        system ∧
      system.locked 1 = false ∧ (system.task 1).status.waits = false ∧
      ¬ (system.task 1).SubaccessesCovered := by
  obtain ⟨system, reached, unlocked, awake, access, member, found⟩ :=
    reaches_of_executeThrough 3 0
      (List.flatten
        [[.submit 0 1 [.strong .read 0 4, .strong .readwrite 4 8] false],
          List.replicate 9 (.advance 1),
          [.start 1, .submit 1 2 [.strong .read 0 8] false],
          List.replicate 5 (.advance 2),
          List.replicate 4 (.delayedOperation 0),
          List.replicate 2 (.advance 2)])
      (fun system action =>
        system.Submits Task.Encloses action ∧ system.Matches action)
      (fun system => system.locked 1 = false ∧
        (system.task 1).status.waits = false ∧
        ∃ access ∈ ((system.task 1).objects .accesses).pieces,
          access.value.hasSubaccesses = true ∧ 0 ∈ access.interval ∧
            ∀ entry ∈ (system.task 1).subaccessBottomMap.pieces,
              0 ∈ entry.interval →
                entry.value.accessType ≠ access.value.type)
      (by decide) (by decide) (by decide +kernel)
  obtain ⟨hasSubaccesses, inside, otherType⟩ := found
  refine ⟨system, reached, unlocked, awake, ?_⟩
  intro covered
  obtain ⟨entry, entryMember, entryInside, type, -⟩ :=
    covered.entry access member hasSubaccesses 0 inside
  exact otherType entry entryMember entryInside type

end Nanos6
