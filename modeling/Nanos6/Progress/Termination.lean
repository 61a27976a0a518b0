import Nanos6.Progress.LoadRuns

/-!
# Delayed processing terminates

`processDelayedOperations` performs the operations of one owner until none is
left, with those that are emitted meanwhile.  It comes to an end when no other
thread holds a lock, and whatever the other threads do, a run with finitely
many submissions processes finitely many operations.
-/

namespace Nanos6

open Foundation

/-! ## The loop -/

/-- What `processDelayedOperations` does next for an owner: it goes on with
the bottom-map update that it is inside of, or with its first operation. -/
def nextProcessing (system : System) (owner : TaskId) : Option Action :=
  match system.bottomMapUpdates.findIdx? fun update => update.1 == owner with
  | some index => some (.bottomMapUpdate index)
  | none =>
      (system.delayedOperations.findIdx? fun delayed =>
        delayed.1 == owner).map .delayedOperation

/-- Perform the operations of an owner until none is left. -/
def processDelayedOperations (owner : TaskId) : Nat → System → Option System
  | 0, _ => none
  | fuel + 1, system =>
      match nextProcessing system owner with
      | none => some system
      | some action =>
          (step system action).bind (processDelayedOperations owner fuel)

/-- The action performs a delayed operation or a bottom-map update. -/
def processes : Action → Bool
  | .delayedOperation _ => true
  | .bottomMapUpdate _ => true
  | _ => false

namespace System

/-- No thread is inside of a critical section: no registration is linking
accesses and no bottom map is being updated. -/
def IsQuiet (system : System) : Prop :=
  (∀ task, (system.task task).isLinking = false) ∧
    system.bottomMapUpdates = []

/-! ## The tasks of a reachable state -/

variable {tasks : Finset TaskId} {bound : Nat} {system next : System}

theorem exists_bound {α : Type} (pieces : List (Piece α)) :
    ∃ bound, ∀ piece ∈ pieces, piece.interval.stop ≤ bound := by
  induction pieces with
  | nil => exact ⟨0, fun _ member => absurd member List.not_mem_nil⟩
  | cons head rest inductionHypothesis =>
      obtain ⟨bound, below⟩ := inductionHypothesis
      refine ⟨max head.interval.stop bound, fun piece member => ?_⟩
      rcases List.mem_cons.mp member with rfl | inRest
      · exact le_max_left _ _
      · exact (below piece inRest).trans (le_max_right _ _)

theorem Within.submitTask (within : Within tasks bound system)
    {parent child : TaskId} {declarations : List AccessDeclaration}
    {mustDelayRelease : Bool}
    (submitted : Nanos6.submitTask system parent child declarations
      mustDelayRelease = some next) :
    ∃ limit, Within (insert child tasks) limit next := by
  obtain ⟨canCall, _, _, accesses, _, rfl⟩ := submitTask_eq_some submitted
  have parentInside := (calls within canCall).1
  obtain ⟨limit, below⟩ := exists_bound accesses.pieces
  refine ⟨max bound limit, ?_, ?_⟩
  · intro task outside
    rw [Finset.mem_insert, not_or] at outside
    have notParent : task ≠ parent :=
      fun same => outside.2 (same ▸ parentInside)
    rw [task_modifyTask, if_neg outside.1, task_modifyTask,
      if_neg notParent]
    exact within.dormant task outside.2
  · intro task
    rw [task_modifyTask]
    split
    · intro piece member
      unfold newTask at member
      dsimp only at member
      rw [Function.update_self] at member
      exact (below piece member).trans (le_max_right _ _)
    · rw [task_modifyTask]
      split
      · rename_i same
        subst same
        exact fun piece member =>
          (within.bounded task piece member).trans (le_max_left _ _)
      · exact fun piece member =>
          (within.bounded task piece member).trans (le_max_left _ _)

theorem within_initialSystem (main : TaskId) :
    Within {main} 0 (initialSystem main) where
  dormant := by
    intro task outside
    have differ : task ≠ main := fun same => outside (by simp [same])
    unfold initialSystem
    dsimp only
    rw [if_neg differ]
    exact ⟨rfl, rfl, fun _ => rfl⟩
  bounded := by
    intro task piece member
    unfold initialSystem at member
    dsimp only at member
    split at member <;> cases member

theorem exists_within_step
    (known : Enrolled system ∧ ∃ tasks bound, Within tasks bound system)
    {action : Action} (taken : step system action = some next) :
    Enrolled next ∧ ∃ tasks bound, Within tasks bound next := by
  obtain ⟨enrolled, tasks, bound, within⟩ := known
  refine ⟨enrolled.step taken, ?_⟩
  cases submitted : submits action with
  | true =>
      cases action with
      | submit parent child declarations mustDelayRelease =>
          exact ⟨insert child tasks, within.submitTask taken⟩
      | _ => cases submitted
  | false =>
      exact ⟨tasks, bound,
        within.of_follows (settles_step within enrolled submitted taken).1⟩

/-- Finitely many tasks have been submitted in a reachable state. -/
theorem exists_within {main : TaskId}
    (reached : Reaches (fun _ _ => True) main system) :
    Enrolled system ∧ ∃ tasks bound, Within tasks bound system := by
  exact reached.invariant
    ⟨Enrolled.initial main, {main}, 0, within_initialSystem main⟩
    fun _ _ _ known _ taken => exists_within_step known taken

/-! ## Processing alone -/

theorem locked_of_isQuiet (quiet : system.IsQuiet) (task : TaskId) :
    system.locked task = false := by
  have child : ((system.task task).registeringChild.elim false fun child =>
      (system.task child).isLinking) = false := by
    cases (system.task task).registeringChild with
    | none => rfl
    | some child => exact quiet.1 child
  unfold locked updatesBottomMap
  rw [quiet.1 task, child, quiet.2]
  rfl

/-- The first operation of an owner can be performed while no lock is held. -/
theorem exists_processUpdateOperation (quiet : system.IsQuiet)
    {owner : TaskId} {index : Nat}
    (first : (system.delayedOperations.findIdx? fun delayed =>
      delayed.1 == owner) = some index) :
    ∃ next, processUpdateOperation system index = some next := by
  obtain ⟨inside, owned, earlier⟩ :=
    List.findIdx?_eq_some_iff_getElem.mp first
  have found : system.delayedOperations[index]? =
      some (system.delayedOperations[index]) :=
    List.getElem?_eq_getElem inside
  have isOwner : (system.delayedOperations[index]).1 = owner := by
    simpa using owned
  have noneEarlier :
      ((system.delayedOperations.take index).any fun delayed =>
        delayed.1 == owner) = false := by
    rw [List.any_eq_false]
    intro delayed member
    obtain ⟨position, before, rfl⟩ := List.mem_take_iff_getElem.mp member
    exact earlier position (lt_of_lt_of_le before (min_le_left _ _))
  have free : system.isUpdating owner = false := by
    unfold isUpdating
    rw [quiet.2]
    rfl
  unfold processUpdateOperation
  rw [found]
  dsimp only
  rw [isOwner, noneEarlier, free, locked_of_isQuiet quiet]
  simp only [Bool.or_self, Bool.false_eq_true, if_false]
  split
  · exact ⟨_, rfl⟩
  · exact ⟨_, rfl⟩

theorem isQuiet_processUpdateOperation (quiet : system.IsQuiet)
    {index : Nat}
    (processed : processUpdateOperation system index = some next) :
    next.IsQuiet := by
  have same := control_processUpdateOperation system index processed
  constructor
  · intro task
    have work : (next.task task).work = (system.task task).work :=
      congrArg Control.work (congrFun same task)
    have linking := quiet.1 task
    unfold Task.isLinking at linking ⊢
    rw [work]
    exact linking
  · obtain ⟨_, _, _, ⟨_, updates, _⟩ | ⟨_, applies⟩⟩ :=
      processUpdateOperation_cases processed
    · exact updates.trans quiet.2
    · exact applies.updates.trans quiet.2

/-- While no other thread holds a lock, `processDelayedOperations` comes to an
end, and no operation of its owner is left then. -/
theorem processDelayedOperations_ends (within : Within tasks bound system)
    (quiet : system.IsQuiet) (owner : TaskId) :
    ∃ fuel final,
      processDelayedOperations owner fuel system = some final ∧
        ∀ delayed ∈ final.delayedOperations, delayed.1 ≠ owner := by
  have accessible :=
    (InvImage.wf (fun state : System => toLex (state.load tasks bound))
      wellFounded_lt).apply system
  -- the load goes down with each operation that is performed
  induction accessible with
  | intro system _ inductionHypothesis =>
      have alone : (system.bottomMapUpdates.findIdx? fun update =>
          update.1 == owner) = none := by
        rw [quiet.2]
        rfl
      cases first : system.delayedOperations.findIdx? fun delayed =>
          delayed.1 == owner with
      | none =>
          refine ⟨1, system, ?_, fun delayed member same => ?_⟩
          · unfold processDelayedOperations nextProcessing
            rw [alone, first]
            rfl
          · have differs := List.findIdx?_eq_none_iff.mp first delayed member
            simp [same] at differs
      | some index =>
          obtain ⟨next, processed⟩ :=
            exists_processUpdateOperation quiet first
          obtain ⟨level, lowers⟩ :=
            lowersAt_processUpdateOperation within processed
          obtain ⟨fuel, final, ends, emptied⟩ :=
            inductionHypothesis next (toLex_lt_of_lowersAt lowers)
              (within.of_follows
                (follows_processUpdateOperation within processed))
              (isQuiet_processUpdateOperation quiet processed)
          refine ⟨fuel + 1, final, ?_, emptied⟩
          unfold processDelayedOperations nextProcessing
          rw [alone, first]
          change (processUpdateOperation system index).bind _ = some final
          rw [processed]
          exact ends

/-! ## Processing with interference -/

/-- In a run with finitely many submissions finitely many operations and
bottom-map updates are processed. -/
theorem finite_processing (enrolled : Enrolled system)
    (within : ∃ tasks bound, Within tasks bound system)
    {states : Nat → System} {actions : Nat → Action}
    (starts : states 0 = system) (run : InfiniteRun step states actions)
    (submissions : {index | submits (actions index) = true}.Finite) :
    {index | processes (actions index) = true}.Finite := by
  have along : ∀ index, Enrolled (states index) ∧
      ∃ tasks bound, Within tasks bound (states index) := by
    intro index
    induction index with
    | zero =>
        rw [starts]
        exact ⟨enrolled, within⟩
    | succ index inductionHypothesis =>
        exact exists_within_step inductionHypothesis (run index)
  obtain ⟨last, isLast⟩ := submissions.bddAbove
  have noMore : ∀ index, last + 1 ≤ index →
      submits (actions index) = false := by
    intro index behind
    by_contra submitted
    rw [Bool.not_eq_false] at submitted
    have below : index ≤ last := isLast submitted
    omega
  -- behind the last submission the tasks and their bound are fixed
  obtain ⟨_, tasks, bound, atLast⟩ := along (last + 1)
  have later : ∀ index, last + 1 ≤ index →
      Within tasks bound (states index) := by
    intro index behind
    induction index, behind using Nat.le_induction with
    | base => exact atLast
    | succ index behind inductionHypothesis =>
        exact inductionHypothesis.of_follows
          (settles_step inductionHypothesis (along index).1
            (noMore index behind) (run index)).1
  refine finite_of_lowered
    (fun index => toLex ((states index).load tasks bound)) (last + 1) ?_ ?_
  · intro index behind
    rcases (settles_step (later index behind) (along index).1
        (noMore index behind) (run index)).2 with never | ⟨level, lowers⟩
    · exact toLex_le_of_neverRaises never
    · exact (toLex_lt_of_lowersAt lowers).le
  · intro index behind isProcessing
    have taken := run index
    cases performed : actions index with
    | delayedOperation position =>
        rw [performed] at taken
        obtain ⟨level, lowers⟩ :=
          lowersAt_processUpdateOperation (later index behind) taken
        exact toLex_lt_of_lowersAt lowers
    | bottomMapUpdate position =>
        rw [performed] at taken
        obtain ⟨level, lowers⟩ :=
          lowersAt_processBottomMapUpdate (later index behind) taken
        exact toLex_lt_of_lowersAt lowers
    | _ =>
        rw [Set.mem_setOf_eq, performed] at isProcessing
        cases isProcessing

end System

/-- Delayed processing terminates, from every reachable state and with every
list of delayed operations.  An owner that is not disturbed empties its list,
and however the steps of the tasks and of the threads are interleaved, a run
with finitely many submissions processes finitely many operations. -/
theorem processDelayedOperations_terminates {main : TaskId} {system : System}
    (reached : Reaches (fun _ _ => True) main system)
    (operations : List (TaskId × UpdateOperation)) :
    (system.IsQuiet → ∀ owner, ∃ fuel final,
        processDelayedOperations owner fuel
            { system with delayedOperations := operations } = some final ∧
          ∀ delayed ∈ final.delayedOperations, delayed.1 ≠ owner) ∧
      ∀ (states : Nat → System) (actions : Nat → Action),
        states 0 = { system with delayedOperations := operations } →
        InfiniteRun step states actions →
        {index | System.submits (actions index) = true}.Finite →
        {index | processes (actions index) = true}.Finite := by
  obtain ⟨enrolled, tasks, bound, within⟩ := System.exists_within reached
  have listed : System.Within tasks bound
      { system with delayedOperations := operations } :=
    ⟨within.dormant, within.bounded⟩
  have stillEnrolled : Enrolled
      { system with delayedOperations := operations } := enrolled
  constructor
  · intro quiet owner
    exact System.processDelayedOperations_ends listed quiet owner
  · intro states actions starts run submissions
    exact System.finite_processing stillEnrolled ⟨tasks, bound, listed⟩ starts
      run submissions

/-! ## An undisturbed writer -/

/-- A submission of one of the given tasks, or another action. -/
def submitsOnly (tasks : Finset TaskId) : Action → Bool
  | .submit _ child _ _ => decide (child ∈ tasks)
  | _ => true

theorem System.exists_bound_of_run {tasks : Finset TaskId} {main : TaskId}
    {system : System} (inside : main ∈ tasks)
    (run : Run step (fun _ action => submitsOnly tasks action = true)
      (initialSystem main) system) :
    Enrolled system ∧ ∃ bound, Within tasks bound system := by
  refine @Run.invariant System Action step _
    (fun state => Enrolled state ∧ ∃ bound, Within tasks bound state) _ _ run
    ?_ ?_
  · have only := within_initialSystem main
    refine ⟨Enrolled.initial main, 0,
      fun task outside => only.dormant task fun member => ?_, only.bounded⟩
    rw [Finset.mem_singleton.mp member] at outside
    exact outside inside
  · rintro state action next ⟨enrolled, bound, within⟩ allowed taken
    refine ⟨enrolled.step taken, ?_⟩
    cases submitted : submits action with
    | true =>
        cases action with
        | submit parent child declarations mustDelayRelease =>
            obtain ⟨limit, more⟩ := within.submitTask taken
            rw [Finset.insert_eq_of_mem (of_decide_eq_true allowed)] at more
            exact ⟨limit, more⟩
        | _ => cases submitted
    | false =>
        exact ⟨bound,
          within.of_follows (settles_step within enrolled submitted taken).1⟩

/-- A reader registers behind a writer, and the writer is unregistered: its
write satisfiability is on the way to the reader. -/
def writerUnregistered : List Action :=
  List.flatten
    [[.submit 0 1 [.strong .write 0 8] false],
      List.replicate 6 (.advance 1),
      [.start 1, .submit 0 2 [.strong .read 0 8] false],
      List.replicate 4 (.advance 2),
      [.delayedOperation 0, .delayedOperation 0, .advance 2, .advance 2,
        .finish 1, .unregister 1, .advance 1, .advance 1, .advance 1]]

theorem processDelayedOperations_writerUnregistered :
    ∃ system, Reaches (fun _ _ => True) 0 system ∧
      system.delayedOperations.map Prod.fst = [1] ∧
      ∃ fuel final,
        processDelayedOperations 1 fuel system = some final ∧
          ∀ delayed ∈ final.delayedOperations, delayed.1 ≠ 1 := by
  obtain ⟨system, run, checked⟩ :=
    exists_run_of_executeAllowed writerUnregistered (initialSystem 0)
      (fun system =>
        [0, 1, 2].all (fun task => !(system.task task).isLinking) &&
          system.bottomMapUpdates.isEmpty &&
          decide (system.delayedOperations.map Prod.fst = [1]))
      (show (executeAllowed step
          (fun _ action => submitsOnly {0, 1, 2} action = true) _ _).any _ =
        true by decide +kernel)
  simp only [Bool.and_eq_true, decide_eq_true_eq, List.isEmpty_iff,
    List.all_eq_true, Bool.not_eq_true'] at checked
  obtain ⟨⟨idle, noUpdates⟩, owners⟩ := checked
  have reached : Reaches (fun _ _ => True) 0 system :=
    run.mono fun _ _ _ => trivial
  obtain ⟨_, bound, within⟩ :=
    System.exists_bound_of_run (by decide) run
  have quiet : system.IsQuiet := by
    refine ⟨fun task => ?_, noUpdates⟩
    by_cases inside : task ∈ ({0, 1, 2} : Finset TaskId)
    · exact idle task (by simpa using inside)
    · unfold Task.isLinking
      rw [(within.dormant task inside).work]
  exact ⟨system, reached, owners,
    (processDelayedOperations_terminates reached
      system.delayedOperations).1 quiet 1⟩

end Nanos6
