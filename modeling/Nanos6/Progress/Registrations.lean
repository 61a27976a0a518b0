import Nanos6.Progress.LoadChanges

/-!
# The load across registrations

A registration creates objects and links others, so it can add to every level
of the load but the first one: the region that is left to match becomes
smaller with each step.
-/

namespace Nanos6

open Foundation

namespace System

variable {tasks : Finset TaskId} {bound : Nat} {system next : System}
  {task : TaskId}

/-- A step that only has less of the registration before it. -/
theorem lowersAt_registration {work : List Work} (inside : task ∈ tasks)
    (sets : SetsWork system task next work)
    (less : (work.map (Work.registrationLoad bound)).sum <
      (system.task task).registrationLoad bound) :
    LowersAt .registration (system.load tasks bound)
      (next.load tasks bound) := by
  have loads : ∀ other,
      (next.task other).registrationLoad bound =
        if other = task then (work.map (Work.registrationLoad bound)).sum
        else (system.task other).registrationLoad bound := by
    intro other
    have controlled := congrFun sets other
    by_cases same : other = task
    · subst same
      rw [Function.update_self] at controlled
      have working : (next.task other).work = work :=
        congrArg Control.work controlled
      rw [if_pos rfl, Task.registrationLoad, working]
    · rw [Function.update_of_ne same] at controlled
      have working : (next.task other).work = (system.task other).work :=
        congrArg Control.work controlled
      rw [if_neg same, Task.registrationLoad_eq bound working]
  refine ⟨fun earlier isEarlier => ?_, ?_⟩
  · exact absurd isEarlier (not_lt_of_ge (Fin.zero_le _))
  · refine Finset.sum_lt_sum (fun other _ => ?_) ⟨task, inside, ?_⟩
    · rw [loads]
      split
      · rename_i same
        subst same
        exact less.le
      · exact le_refl _
    · rw [loads, if_pos rfl]
      exact less

/-! ## What a registration leaves alone -/

theorem follows_createInitialFragment (inside : task ∈ tasks)
    (owner : TaskId) (superaccess : Piece DataAccess)
    (subregion : DataAccessRegion) :
    Follows tasks bound system
      (createInitialFragment system owner task superaccess subregion) where
  dormant := by
    intro other outside dormant
    have differ : other ≠ task := fun same => outside (same ▸ inside)
    rw [task_createInitialFragment, if_neg differ]
    exact dormant
  bounded := by
    intro other limited
    rw [task_createInitialFragment]
    split
    · rename_i same
      subst same
      intro part partMember
      dsimp only at partMember
      rw [Function.update_self] at partMember
      obtain ⟨old, oldMember, _, below⟩ :=
        IntervalMap.inside_rewritePieces _ _ partMember
      exact below.trans (limited old oldMember)
    · exact limited

theorem follows_allocateReductionInfo (inside : task ∈ tasks)
    (progress : LinkProgress) :
    Follows tasks bound system
      (allocateReductionInfo system task progress) := by
  unfold allocateReductionInfo
  dsimp only
  split
  · exact .of_eq tasks bound rfl
  · exact (system.follows_changeObject inside task .accesses _ _ _).trans
      (.of_eq tasks bound rfl)

theorem follows_allocateForPrevious (inside : task ∈ tasks)
    (progress : LinkProgress) (previous : DataAccess) :
    Follows tasks bound system
      (allocateForPrevious system task progress previous).1 := by
  unfold allocateForPrevious
  split
  · split
    · exact follows_allocateReductionInfo inside progress
    · split
      · exact .of_eq tasks bound rfl
      · split
        · exact follows_allocateReductionInfo inside progress
        · exact .of_eq tasks bound rfl
  · exact .of_eq tasks bound rfl

theorem remaining_allocateForPrevious (progress : LinkProgress)
    (previous : DataAccess) :
    (allocateForPrevious system task progress previous).2.remaining =
      progress.remaining := by
  unfold allocateForPrevious
  split
  · split
    · rfl
    · split
      · rfl
      · split <;> rfl
  · rfl

/-! ## Matching -/

/-- A step of the matching of an access: it goes on behind the start of what
was left to match. -/
def MatchesOn (tasks : Finset TaskId) (bound : Nat) (system : System)
    (task : TaskId) (progress : LinkProgress) (rest : List Work)
    (next : System) : Prop :=
  Follows tasks bound system next ∧
    ∃ reached : LinkProgress,
      SetsWork system task next (.replaceMatching reached :: rest) ∧
        reached.remaining.stop = progress.remaining.stop ∧
        progress.remaining.start < reached.remaining.start

section Matching

variable {parent : TaskId} {progress : LinkProgress} (rest : List Work)

theorem matchesOn_linkPrevious (inside : task ∈ tasks)
    {previousTask : TaskId} (previousInside : previousTask ∈ tasks)
    (map : AccessMap) {piece : Piece DataAccess} {region : DataAccessRegion}
    (meets : piece.interval.Meets region)
    (start : progress.remaining.start ≤ region.start)
    (parentAccessType : DataAccessType) :
    MatchesOn tasks bound system task progress rest
      (linkPrevious system task parent progress map previousTask piece region
        parentAccessType rest) := by
  refine ⟨?_, _,
    setsWork_linkPrevious system task parent progress map previousTask piece
      region parentAccessType rest, ?_, ?_⟩
  · unfold linkPrevious
    dsimp only
    have allocated : Follows tasks bound system
        (allocateForPrevious system task progress piece.value).1 :=
      follows_allocateForPrevious inside progress piece.value
    refine (allocated.trans (follows_changeObject _ previousInside task map
      piece region (.linkTo ⟨task, .access⟩))).trans ?_
    exact (follows_modifyTask_of_same tasks bound _ parent rfl rfl rfl).trans
      (follows_setWork _ inside _)
  · dsimp only [LinkProgress.advance]
    rw [remaining_allocateForPrevious]
  · dsimp only [LinkProgress.advance]
    unfold Interval.Meets Interval.Nonempty Interval.inter at meets
    unfold Interval.inter
    dsimp only at meets ⊢
    omega

theorem matchesOn_matchEntry (within : Within tasks bound system)
    (inside : task ∈ tasks) {entry : Piece BottomMapEntry}
    (meets : entry.interval.Meets progress.remaining)
    (matched : matchEntry system task parent progress entry rest =
      some next) :
    MatchesOn tasks bound system task progress rest next := by
  unfold matchEntry at matched
  dsimp only at matched
  split at matched
  · cases matched
  · split at matched
    · cases matched
      refine ⟨(follows_modifyTask_of_same tasks bound _ parent rfl rfl
          rfl).trans (follows_setWork _ inside _), _,
        setsWork_setWork system task
          (control_modifyTask_of_eq system parent rfl) _, rfl, ?_⟩
      dsimp only [LinkProgress.advance]
      unfold Interval.Meets Interval.Nonempty Interval.inter at meets
      unfold Interval.inter
      dsimp only at meets ⊢
      omega
    · rename_i piece found
      cases matched
      obtain ⟨member, met, _⟩ := IntervalMap.firstIn_eq_some _ found
      exact matchesOn_linkPrevious rest inside (within.mem_of_piece member) _
        met (le_max_right _ _) _

theorem matchesOn_matchUncovered (inside : task ∈ tasks)
    {uncovered : DataAccessRegion}
    (start : progress.remaining.start ≤ uncovered.start)
    (positive : uncovered.Nonempty) :
    MatchesOn tasks bound system task progress rest
      (matchUncovered system task progress uncovered rest) := by
  have allocated : ∀ allocates : Bool,
      Follows tasks bound system
          (if allocates = true then allocateReductionInfo system task progress
            else system) ∧
        (if allocates = true then allocateReductionInfo system task progress
          else system).control = system.control := by
    intro allocates
    cases allocates
    · exact ⟨.of_eq tasks bound rfl, rfl⟩
    · exact ⟨follows_allocateReductionInfo inside progress,
        control_allocateReductionInfo system task progress⟩
  unfold matchUncovered
  dsimp only
  split
  · refine ⟨(allocated _).1.trans (follows_setWork _ inside _), _,
      setsWork_setWork system task (allocated _).2 _, rfl, ?_⟩
    exact lt_of_le_of_lt start positive
  · rename_i piece found
    obtain ⟨_, meets, _⟩ := IntervalMap.firstIn_eq_some _ found
    refine ⟨((allocated _).1.trans (follows_changeObject _ inside task
        .accesses piece uncovered .satisfyLocally)).trans
          (follows_setWork _ inside _), _,
      setsWork_setWork system task ?_ _, rfl, ?_⟩
    · rw [control_changeObject]
      exact (allocated _).2
    · dsimp only [LinkProgress.advance]
      unfold Interval.Meets Interval.Nonempty Interval.inter at meets
      unfold Interval.inter
      dsimp only at meets ⊢
      omega

theorem matchesOn_matchSuperaccess (inside : task ∈ tasks)
    (parentInside : parent ∈ tasks) {superaccess : Piece DataAccess}
    {missing : DataAccessRegion}
    (meets : superaccess.interval.Meets missing)
    (start : progress.remaining.start ≤ missing.start) :
    MatchesOn tasks bound
      (createInitialFragment system task parent superaccess missing) task
      progress rest
      (matchSuperaccess system task parent progress superaccess missing
        rest) := by
  unfold matchSuperaccess
  apply matchesOn_linkPrevious
  · exact inside
  · exact parentInside
  · exact meets
  · exact start

theorem matchesOn_matchMissing (within : Within tasks bound system)
    (inside : task ∈ tasks) {missing : DataAccessRegion}
    (start : progress.remaining.start ≤ missing.start)
    (positive : missing.Nonempty) :
    MatchesOn tasks bound system task progress rest
      (matchMissing system task parent progress missing rest) := by
  unfold matchMissing
  split
  · exact matchesOn_matchUncovered rest inside start positive
  · rename_i superaccess found
    obtain ⟨member, meets, _⟩ := IntervalMap.firstIn_eq_some _ found
    split
    · have parentInside := within.mem_of_piece member
      have linked :
          MatchesOn tasks bound
            (createInitialFragment system task parent superaccess missing)
            task progress rest
            (matchSuperaccess system task parent progress superaccess missing
              rest) :=
        matchesOn_matchSuperaccess rest inside parentInside meets start
      obtain ⟨follows, reached, sets, stop, later⟩ := linked
      exact ⟨(follows_createInitialFragment parentInside task superaccess
        missing).trans follows, reached,
        sets.of_control
          (control_createInitialFragment system task parent superaccess
            missing), stop, later⟩
    · rename_i behind
      refine matchesOn_matchUncovered rest inside start ?_
      exact not_le.mp behind

end Matching

/-- A step of the loop over what is left of an access. -/
theorem replaceMatching_cases (within : Within tasks bound system)
    (inside : task ∈ tasks) {parent : TaskId} {progress : LinkProgress}
    {rest : List Work}
    (matched : replaceMatchingInBottomMapLinkAndPropagate system task parent
      progress rest = some next) :
    (Follows tasks bound system next ∧ SetsWork system task next rest) ∨
      (progress.remaining.Nonempty ∧
        MatchesOn tasks bound system task progress rest next) := by
  unfold replaceMatchingInBottomMapLinkAndPropagate at matched
  dsimp only at matched
  split at matched
  · cases matched
    exact Or.inl ⟨(follows_modifyTask_of_same tasks bound _ parent rfl rfl
      rfl).trans (follows_setWork _ inside _),
      setsWork_setWork system task
        (control_modifyTask_of_eq system parent rfl) _⟩
  · rename_i notDone
    have positive : progress.remaining.Nonempty := not_le.mp notDone
    refine Or.inr ⟨positive, ?_⟩
    split at matched
    · cases matched
      exact matchesOn_matchMissing rest within inside (le_refl _) positive
    · rename_i entry found
      obtain ⟨_, meets, _⟩ := IntervalMap.firstIn_eq_some _ found
      split at matched
      · exact matchesOn_matchEntry rest within inside meets matched
      · rename_i behind
        cases matched
        exact matchesOn_matchMissing rest within inside (le_refl _)
          (not_le.mp behind)

/-- Every step of the matching of an access lowers the load. -/
theorem lowersAt_replaceMatching (within : Within tasks bound system)
    {parent : TaskId} {progress : LinkProgress} {rest : List Work}
    (working : (system.task task).work = .replaceMatching progress :: rest)
    (matched : replaceMatchingInBottomMapLinkAndPropagate system task parent
      progress rest = some next) :
    Follows tasks bound system next ∧
      LowersAt .registration (system.load tasks bound)
        (next.load tasks bound) := by
  have inside := within.mem_of_work working
  have before : (system.task task).registrationLoad bound =
      progress.remaining.stop - progress.remaining.start + 1 +
        (rest.map (Work.registrationLoad bound)).sum := by
    simp [Task.registrationLoad, working, Work.registrationLoad]
  rcases replaceMatching_cases within inside matched with
    ⟨follows, sets⟩ | ⟨positive, follows, reached, sets, stop, later⟩
  · refine ⟨follows, lowersAt_registration inside sets ?_⟩
    omega
  · refine ⟨follows, lowersAt_registration inside sets ?_⟩
    have after : Work.registrationLoad bound (.replaceMatching reached) <
        progress.remaining.stop - progress.remaining.start + 1 := by
      unfold Interval.Nonempty at positive
      simp only [Work.registrationLoad]
      omega
    simp only [List.map_cons, List.sum_cons]
    omega

/-- Every step of the loop over the accesses of a new task lowers the load. -/
theorem lowersAt_linkTaskAccesses (within : Within tasks bound system)
    {low : Nat} {rest : List Work}
    (working : (system.task task).work = .linkTaskAccesses low :: rest) :
    Follows tasks bound system (linkTaskAccesses system task low rest) ∧
      LowersAt .registration (system.load tasks bound)
        ((linkTaskAccesses system task low rest).load tasks bound) := by
  have inside := within.mem_of_work working
  have before : (system.task task).registrationLoad bound =
      (bound - low) * (bound + 2) + 1 +
        (rest.map (Work.registrationLoad bound)).sum := by
    simp [Task.registrationLoad, working, Work.registrationLoad]
  unfold linkTaskAccesses
  split
  · refine ⟨follows_setWork _ inside _, lowersAt_registration inside
      (setsWork_setWork system task rfl _) ?_⟩
    omega
  · rename_i piece found
    obtain ⟨member, below, _⟩ := IntervalMap.nextFrom_eq_some _ found
    have limited := within.bounded task piece member
    refine ⟨(follows_changeObject _ inside task .accesses piece piece.interval
        (Setter.setInBottomMap.andThen .setRegistered)).trans
          (follows_setWork _ inside _),
      lowersAt_registration inside
        (setsWork_setWork system task (control_changeObject _ _ _ _ _ _ _)
          _) ?_⟩
    have fewer :
        (bound - piece.interval.stop) * (bound + 2) + (bound + 2) ≤
          (bound - low) * (bound + 2) := by
      rw [← Nat.succ_mul]
      exact Nat.mul_le_mul_right _ (by omega)
    simp only [List.map_cons, List.sum_cons, Work.registrationLoad]
    omega

end System

end Nanos6
