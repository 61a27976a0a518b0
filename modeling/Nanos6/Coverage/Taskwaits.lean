import Nanos6.Coverage.Matching

/-!
# Taskwait fragments and sinks

A task has taskwait fragments only between `handleEnterTaskwait` and
`handleExitTaskwait`, and sinks only after its body has ended.  In between an
entry of its bottom map leads to an access or to a fragment.
-/

namespace Nanos6

open Foundation

/-- The accesses of the task are being or have been unregistered. -/
def TaskStatus.releases : TaskStatus → Bool
  | .releasing => true
  | .released => true
  | _ => false

/-- The taskwait fragments and sinks of the task may get a next object. -/
def System.LinksTaskwaits (system : System) (task : TaskId) : Prop :=
  (system.task task).hasAccesses = true ∨
    (system.task task).status.waits = false

/-- Where the taskwait fragments and sinks of all tasks are.  While a task
without accesses waits, nothing follows its taskwait fragments. -/
structure TaskwaitsKept (system : System) : Prop where
  kept : Kept system
  absent : ∀ task, (system.task task).status.waits = false →
    (system.task task).status.releases = false →
      ((system.task task).objects .taskwaitFragments).pieces = []
  waits : ∀ task, (system.task task).status.waits = true →
    ∀ piece ∈ ((system.task task).objects .taskwaitFragments).pieces,
      piece.value.objectType = .taskwait ∧
        (piece.value.hasNext = true → (system.task task).hasAccesses = true)
  sinks : ∀ task address entry,
    ((system.task task).footprint address).entry = some entry →
      entry.link.objectType = .topLevelSink →
        (system.task task).status.releases = true
  previous : ∀ task previous region,
    .linkToTaskwait previous region ∈ (system.task task).work →
      previous.objectType.map = .taskwaitFragments →
        previous.task = task ∧ (system.task task).status.waits = false

namespace TaskwaitsKept

variable {system next : System}

/-- No taskwait fragment, no sink and no entry of a sink appears. -/
theorem keeps (taskwaits : TaskwaitsKept system) (kept : Kept next)
    (objectType : ∀ task,
      ∀ part ∈ ((next.task task).objects .taskwaitFragments).pieces,
        ∃ old ∈ ((system.task task).objects .taskwaitFragments).pieces,
          part.value.objectType = old.value.objectType)
    (linked : ∀ task,
      ∀ part ∈ ((next.task task).objects .taskwaitFragments).pieces,
        part.value.hasNext = true →
          system.LinksTaskwaits task ∨
            ∃ old ∈ ((system.task task).objects .taskwaitFragments).pieces,
              old.value.hasNext = true)
    (accesses : ∀ task, (system.task task).hasAccesses = true →
      (next.task task).status.waits = true →
        (next.task task).hasAccesses = true)
    (sinks : ∀ task address entry,
      ((next.task task).footprint address).entry = some entry →
        entry.link.objectType = .topLevelSink →
          ((system.task task).footprint address).entry = some entry)
    (waits : ∀ task, (next.task task).status.waits = false →
      (next.task task).status.releases = false →
        (system.task task).status.waits = false ∨
          ((next.task task).objects .taskwaitFragments).pieces = [])
    (enters : ∀ task, (next.task task).status.waits = true →
      (system.task task).status.waits = true ∨
        (system.task task).status.releases = false)
    (releases : ∀ task, (next.task task).status.releases = false →
      (system.task task).status.releases = false)
    (previous : ∀ task previous region,
      .linkToTaskwait previous region ∈ (next.task task).work →
        previous.objectType.map = .taskwaitFragments →
          previous.task = task ∧ (next.task task).status.waits = false) :
    TaskwaitsKept next where
  kept := kept
  absent := by
    intro task awake early
    rcases waits task awake early with before | absent
    · rw [List.eq_nil_iff_forall_not_mem]
      intro part member
      obtain ⟨old, oldMember, _⟩ := objectType task part member
      rw [taskwaits.absent task before (releases task early)] at oldMember
      cases oldMember
    · exact absent
  waits := by
    intro task waiting part member
    obtain ⟨old, oldMember, same⟩ := objectType task part member
    have before : (system.task task).status.waits = true := by
      by_contra awake
      have early := (enters task waiting).resolve_left awake
      rw [taskwaits.absent task (Bool.eq_false_iff.mpr awake) early]
        at oldMember
      cases oldMember
    rw [same]
    refine ⟨(taskwaits.waits task before old oldMember).1, ?_⟩
    intro hasNext
    refine accesses task ?_ waiting
    rcases linked task part member hasNext with
      (here | awake) | ⟨other, otherMember, otherNext⟩
    · exact here
    · rw [before] at awake
      cases awake
    · exact (taskwaits.waits task before other otherMember).2 otherNext
  sinks := by
    intro task address entry found kind
    have before :=
      taskwaits.sinks task address entry
        (sinks task address entry found kind) kind
    by_contra early
    rw [releases task (Bool.eq_false_iff.mpr early)] at before
    cases before
  previous := previous

/-- Changes of the status of objects, whatever the control does meanwhile. -/
theorem restated (taskwaits : TaskwaitsKept system)
    (restated : Restated system.LinksTaskwaits system next)
    (waits : ∀ task, (next.task task).status.waits = false →
      (next.task task).status.releases = false →
        (system.task task).status.waits = false)
    (enters : ∀ task, (next.task task).status.waits = true →
      (system.task task).status.waits = true ∨
        (system.task task).status.releases = false)
    (releases : ∀ task, (next.task task).status.releases = false →
      (system.task task).status.releases = false)
    (previous : ∀ task previous region,
      .linkToTaskwait previous region ∈ (next.task task).work →
        previous.objectType.map = .taskwaitFragments →
          previous.task = task ∧ (next.task task).status.waits = false) :
    TaskwaitsKept next := by
  refine taskwaits.keeps (restated.kept taskwaits.kept)
    (fun task part => restated.objectType)
    (fun task part => restated.linked) ?_ ?_
    (fun task awake early => Or.inl (waits task awake early)) enters releases
    previous
  · intro task before _
    rw [restated.hasAccesses]
    exact before
  · intro task address entry found _
    rcases restated.erodes task address with same | ⟨_, same⟩
    · rw [same] at found
      exact found
    · rw [same] at found
      cases found

/-- The operation of a task goes on and leaves all statuses alone. -/
theorem setsWork (taskwaits : TaskwaitsKept system) (kept : Kept next)
    {task : TaskId} {work : List Work}
    (sets : SetsWork system task next work)
    (objectType : ∀ task,
      ∀ part ∈ ((next.task task).objects .taskwaitFragments).pieces,
        ∃ old ∈ ((system.task task).objects .taskwaitFragments).pieces,
          part.value.objectType = old.value.objectType)
    (linked : ∀ task,
      ∀ part ∈ ((next.task task).objects .taskwaitFragments).pieces,
        part.value.hasNext = true →
          system.LinksTaskwaits task ∨
            ∃ old ∈ ((system.task task).objects .taskwaitFragments).pieces,
              old.value.hasNext = true)
    (accesses : ∀ task, (system.task task).hasAccesses = true →
      (next.task task).hasAccesses = true)
    (sinks : ∀ task address entry,
      ((next.task task).footprint address).entry = some entry →
        entry.link.objectType = .topLevelSink →
          ((system.task task).footprint address).entry = some entry)
    (previous : ∀ previous region, .linkToTaskwait previous region ∈ work →
      previous.objectType.map = .taskwaitFragments →
        previous.task = task ∧ (system.task task).status.waits = false) :
    TaskwaitsKept next := by
  refine taskwaits.keeps kept objectType linked
    (fun other before _ => accesses other before) sinks ?_ ?_ ?_ ?_
  · intro other awake _
    rw [sets.status] at awake
    exact Or.inl awake
  · intro other waiting
    rw [sets.status] at waiting
    exact Or.inl waiting
  · intro other early
    rwa [sets.status] at early
  · intro other link region member
    rw [sets.status]
    rw [sets.work] at member
    split at member
    · rename_i same
      rw [same]
      exact previous link region member
    · exact taskwaits.previous other link region member

/-- The operation of a task goes on by changing the status of objects. -/
theorem restates (taskwaits : TaskwaitsKept system)
    (restated : Restated system.LinksTaskwaits system next) {task : TaskId}
    {work : List Work} (sets : SetsWork system task next work)
    (previous : ∀ previous region, .linkToTaskwait previous region ∈ work →
      previous.objectType.map = .taskwaitFragments →
        previous.task = task ∧ (system.task task).status.waits = false) :
    TaskwaitsKept next := by
  refine taskwaits.setsWork (restated.kept taskwaits.kept) sets
    (fun other part => restated.objectType)
    (fun other part => restated.linked) ?_ ?_ previous
  · intro other before
    rw [restated.hasAccesses]
    exact before
  · intro other address entry found _
    rcases restated.erodes other address with same | ⟨_, same⟩
    · rw [same] at found
      exact found
    · rw [same] at found
      cases found

/-! ## Registration -/

theorem unmaps (taskwaits : TaskwaitsKept system) {start : System}
    {parent : TaskId} {target : Interval}
    (unmaps : Unmaps system.LinksTaskwaits start next parent target)
    (kept : Kept start)
    (objects : ∀ task, (start.task task).objects .taskwaitFragments =
      (system.task task).objects .taskwaitFragments)
    (accesses : ∀ task, (system.task task).hasAccesses = true →
      (start.task task).hasAccesses = true)
    (sinks : ∀ task address entry,
      ((start.task task).footprint address).entry = some entry →
        entry.link.objectType = .topLevelSink →
          ((system.task task).footprint address).entry = some entry)
    {task : TaskId} {work : List Work}
    (sets : SetsWork system task next work)
    (previous : ∀ previous region, .linkToTaskwait previous region ∈ work →
      previous.objectType.map = .taskwaitFragments →
        previous.task = task ∧ (system.task task).status.waits = false) :
    TaskwaitsKept next := by
  refine taskwaits.setsWork (unmaps.kept kept) sets ?_ ?_ ?_ ?_ previous
  · intro other part member
    obtain ⟨old, oldMember, same⟩ := unmaps.objectType member
    rw [objects] at oldMember
    exact ⟨old, oldMember, same⟩
  · intro other part member hasNext
    rw [← objects]
    exact unmaps.linked member hasNext
  · intro other before
    rw [unmaps.hasAccesses]
    exact accesses other before
  · intro other address entry found kind
    obtain ⟨middle, erodes, footprint⟩ := unmaps.footprint other address
    rw [footprint] at found
    refine sinks other address entry ?_ kind
    split at found
    · cases found
    · rcases erodes with rfl | ⟨_, rfl⟩
      · exact found
      · cases found

/-- The entries beside an initial fragment lead to the fragment. -/
theorem entry_createInitialFragment {owner task : TaskId}
    {superaccess : Piece DataAccess} {subregion : DataAccessRegion}
    {other : TaskId} {address : Nat} {entry : BottomMapEntry}
    (found : (((createInitialFragment system owner task superaccess
      subregion).task other).footprint address).entry = some entry)
    (kind : entry.link.objectType = .topLevelSink) :
    ((system.task other).footprint address).entry = some entry := by
  rw [task_createInitialFragment] at found
  split at found
  · rename_i same
    subst same
    have inserted : ∀ (map : IntervalMap BottomMapEntry)
        (target : DataAccessRegion),
        (map.insert target
          ⟨⟨other, .fragment⟩, superaccess.value.type⟩).lookup address =
            some entry →
        map.lookup address = some entry := by
      intro map target read
      rcases map.lookup_insert_cases read with rfl | old
      · cases kind
      · exact old
    change (insertExcludedEntries _ _ _ _).lookup address = some entry
      at found
    unfold insertExcludedEntries at found
    dsimp only at found
    have withLeft : ∀ first : IntervalMap BottomMapEntry,
        first = (if superaccess.interval.start < subregion.start then
          (system.task other).subaccessBottomMap.insert
            ⟨superaccess.interval.start, subregion.start⟩
            ⟨⟨other, .fragment⟩, superaccess.value.type⟩
          else (system.task other).subaccessBottomMap) →
        first.lookup address = some entry →
        (system.task other).subaccessBottomMap.lookup address =
          some entry := by
      intro first isFirst read
      rw [isFirst] at read
      split at read
      · exact inserted _ _ read
      · exact read
    split at found
    · exact withLeft _ rfl (inserted _ _ found)
    · exact withLeft _ rfl found
  · exact found

theorem linkPrevious (taskwaits : TaskwaitsKept system) {start : System}
    (control : start.control = system.control)
    (accounted : Accounted start) (kept : Kept start)
    (objects : ∀ task, (start.task task).objects .taskwaitFragments =
      (system.task task).objects .taskwaitFragments)
    (accesses : ∀ task, (system.task task).hasAccesses = true →
      (start.task task).hasAccesses = true)
    (sinks : ∀ task address entry,
      ((start.task task).footprint address).entry = some entry →
        entry.link.objectType = .topLevelSink →
          ((system.task task).footprint address).entry = some entry)
    {task parent previousTask : TaskId} (parentDiffers : parent ≠ task)
    {progress : LinkProgress} {head : Work} {rest : List Work}
    (working : (system.task task).work = head :: rest)
    {map : AccessMap} {piece : Piece DataAccess}
    (differ : previousTask ≠ task)
    (member : piece ∈ ((start.task previousTask).objects map).pieces)
    {region : DataAccessRegion} (meets : piece.interval.Meets region)
    (taskwait : map = .taskwaitFragments →
      system.LinksTaskwaits previousTask)
    {parentAccessType : DataAccessType}
    (clean : (Nanos6.linkPrevious start task parent progress map previousTask
      piece region parentAccessType rest).assertionFailed = false) :
    TaskwaitsKept
      (Nanos6.linkPrevious start task parent progress map previousTask piece
        region parentAccessType rest) := by
  refine taskwaits.unmaps
    (unmaps_linkPrevious accounted parentDiffers differ member meets
      taskwait clean) kept objects accesses sinks
    ((setsWork_linkPrevious start task parent progress map previousTask piece
      region parentAccessType rest).of_control control) ?_
  intro link target inWork
  refine taskwaits.previous task link target ?_
  rw [working]
  refine List.mem_cons_of_mem head ?_
  simpa using inWork

theorem matchEntry (taskwaits : TaskwaitsKept system)
    (accounted : Accounted system) {child parent : TaskId}
    (differ : parent ≠ child) {progress : LinkProgress} {rest : List Work}
    (working :
      (system.task child).work = .replaceMatching progress :: rest)
    {entry : Piece BottomMapEntry}
    (taskwait : entry.value.link.objectType.map = .taskwaitFragments →
      system.LinksTaskwaits entry.value.link.task)
    (linked :
      ((system.task entry.value.link.task).objects
        entry.value.link.objectType.map).firstIn
          (entry.interval.inter progress.remaining).start
          (entry.interval.inter progress.remaining).stop ≠ none)
    (matched : Nanos6.matchEntry system child parent progress entry rest =
      some next)
    (clean : next.assertionFailed = false) : TaskwaitsKept next := by
  unfold Nanos6.matchEntry at matched
  dsimp only at matched
  split at matched
  · cases matched
  · rename_i free
    split at matched
    · rename_i gone
      exact absurd gone linked
    · rename_i piece found
      cases matched
      obtain ⟨member, meets, -⟩ := IntervalMap.firstIn_eq_some _ found
      refine taskwaits.linkPrevious rfl accounted taskwaits.kept
        (fun _ => rfl) (fun _ before => before)
        (fun _ _ _ found _ => found) differ working ?_ member meets taskwait
        clean
      intro same
      refine free ⟨?_, ?_⟩
      · rw [same]
        exact differ.symm
      · rw [same]
        simp [System.locked, Task.isLinking, working]

theorem matchMissing (taskwaits : TaskwaitsKept system)
    (accounted : Accounted system) {child parent : TaskId}
    (differ : parent ≠ child) {progress : LinkProgress} {rest : List Work}
    (working :
      (system.task child).work = .replaceMatching progress :: rest)
    {missing : DataAccessRegion} (positive : missing.start < missing.stop)
    (clean : (Nanos6.matchMissing system child parent progress missing
      rest).assertionFailed = false) :
    TaskwaitsKept
      (Nanos6.matchMissing system child parent progress missing rest) := by
  have uncovered : ∀ region : DataAccessRegion, region.start < region.stop →
      (Nanos6.matchUncovered system child progress region
        rest).assertionFailed = false →
      TaskwaitsKept
        (Nanos6.matchUncovered system child progress region rest) := by
    intro region regionPositive cleanRegion
    obtain ⟨restated, matched, sets, -⟩ :=
      restated_matchUncovered accounted regionPositive cleanRegion
    refine taskwaits.restates restated sets fun link target inWork => ?_
    refine taskwaits.previous child link target ?_
    rw [working]
    refine List.mem_cons_of_mem _ ?_
    simpa using inWork
  revert clean
  unfold Nanos6.matchMissing
  split
  · exact uncovered missing positive
  · rename_i superaccess found
    obtain ⟨member, meets, -⟩ := IntervalMap.firstIn_eq_some _ found
    split
    · intro clean
      have cleanCreated := assertionFailed_linkPrevious clean
      refine taskwaits.linkPrevious
        (control_createInitialFragment system child parent superaccess
          missing)
        (accounted.createInitialFragment child parent member missing)
        (taskwaits.kept.createInitialFragment member missing) ?_ ?_
        (fun _ _ _ => entry_createInitialFragment) differ working differ
        (Accounted.mem_createInitialFragment cleanCreated) meets (by simp)
        clean
      · intro other
        rw [task_createInitialFragment]
        split
        · rename_i same
          rw [same]
          simp
        · rfl
      · intro other before
        rw [task_createInitialFragment]
        split
        · simp only [Task.hasAccesses, Bool.not_eq_true',
            List.isEmpty_eq_false_iff, Function.update_self]
          exact IntervalMap.replace_ne_nil _ member
            (Interval.meets_self
              (IntervalMap.nonempty _ superaccess member)) _
        · exact before
    · rename_i later
      exact uncovered _ (Nat.lt_of_not_le later)

/-- The access of the child enters the bottom map. -/
theorem enters (taskwaits : TaskwaitsKept system) {child parent : TaskId}
    {progress : LinkProgress} {rest : List Work}
    (working :
      (system.task child).work = .replaceMatching progress :: rest) :
    TaskwaitsKept
      ((system.modifyTask parent fun current =>
        { current with
          subaccessBottomMap :=
            current.subaccessBottomMap.insert progress.region
              ⟨⟨child, .access⟩, progress.parentAccessType⟩ }).setWork child
        rest) := by
  have objects : ∀ task,
      (((system.modifyTask parent fun current =>
        { current with
          subaccessBottomMap :=
            current.subaccessBottomMap.insert progress.region
              ⟨⟨child, .access⟩, progress.parentAccessType⟩ }).setWork child
        rest).task task).objects = (system.task task).objects := by
    intro task
    rw [System.objects_setWork, System.task_modifyTask]
    split
    · rename_i same
      rw [same]
    · rfl
  refine taskwaits.setsWork ?_ (setsWork_setWork system child
    (System.control_modifyTask_of_eq system parent rfl) rest) ?_ ?_ ?_ ?_ ?_
  · refine taskwaits.kept.congr ?_ ?_ ?_ fun _ updates => updates
    · intro task
      rw [objects]
      exact fun _ member => member
    · intro task
      rw [objects]
      exact taskwaits.kept.subaccesses task
    · intro task before _
      simp only [Task.hasAccesses, objects] at before ⊢
      exact before
  · intro task part member
    rw [objects] at member
    exact ⟨part, member, rfl⟩
  · intro task part member hasNext
    rw [objects] at member
    exact Or.inr ⟨part, member, hasNext⟩
  · intro task before
    simp only [Task.hasAccesses, objects] at before ⊢
    exact before
  · intro task address entry found kind
    rw [System.footprint_setWork, System.task_modifyTask] at found
    split at found
    · rename_i same
      rw [same]
      rcases IntervalMap.lookup_insert_cases _ found with rfl | old
      · cases kind
      · exact old
    · exact found
  · intro link target inWork
    refine taskwaits.previous child link target ?_
    rw [working]
    exact List.mem_cons_of_mem _ inWork

theorem replaceMatching (taskwaits : TaskwaitsKept system)
    (covered : Covered system) (accounted : Accounted system)
    {child parent : TaskId} (differ : parent ≠ child)
    {progress : LinkProgress} {rest : List Work}
    (working :
      (system.task child).work = .replaceMatching progress :: rest)
    (parentIs : (system.task child).parent = some parent)
    (awake : (system.task parent).status.waits = false)
    (meetsObjects : system.meetsObjects child = true)
    (matched : replaceMatchingInBottomMapLinkAndPropagate system child parent
      progress rest = some next)
    (clean : next.assertionFailed = false) : TaskwaitsKept next := by
  unfold replaceMatchingInBottomMapLinkAndPropagate at matched
  dsimp only at matched
  split at matched
  · cases matched
    exact taskwaits.enters working
  · rename_i more
    split at matched
    · cases matched
      exact taskwaits.matchMissing accounted differ working
        (Nat.lt_of_not_le more) clean
    · rename_i entry found
      obtain ⟨member, meets, -⟩ := IntervalMap.firstIn_eq_some _ found
      split at matched
      · refine taskwaits.matchEntry accounted differ working ?_ ?_ matched
          clean
        · intro isTaskwait
          have positive := IntervalMap.nonempty _ entry member
          have own := (covered.rooted parent entry.interval.start entry.value
            (IntervalMap.lookup_of_mem _ member ⟨Nat.le_refl _, positive⟩)
            isTaskwait).1
          rw [own]
          exact Or.inr awake
        · exact firstIn_of_meetsObjects working parentIs meetsObjects member
            meets
      · rename_i later
        cases matched
        exact taskwaits.matchMissing accounted differ working
          (Nat.lt_of_not_le later) clean

end TaskwaitsKept

/-! ## Taskwait fragments and sinks appear -/

theorem task_createTaskwaitFragment_of_ne (system : System)
    {task other : TaskId} (differ : other ≠ task)
    (objectType : DataAccessObjectType) (entry : Piece BottomMapEntry) :
    (createTaskwaitFragment system task objectType entry).task other =
      system.task other := by
  unfold createTaskwaitFragment
  dsimp only
  rw [System.task_modifyTask, if_neg differ, System.task_createObject,
    if_neg differ]

/-- The bytes of an entry that gets a taskwait fragment or a sink. -/
theorem footprint_createTaskwaitFragment (system : System) {task : TaskId}
    {objectType : DataAccessObjectType} (notAccess : objectType ≠ .access)
    {entry : Piece BottomMapEntry}
    (member : entry ∈ (system.task task).subaccessBottomMap.pieces)
    (other : TaskId) (address : Nat) :
    ∃ present,
      ((createTaskwaitFragment system task objectType entry).task
          other).footprint address =
        (if other = task ∧ address ∈ entry.interval then
          { (system.task task).footprint address with
            hasTaskwait := present
            entry := some ⟨⟨task, objectType⟩, entry.value.accessType⟩ }
        else (system.task other).footprint address) ∧
      (((system.task task).objects .taskwaitFragments).Fits entry.interval →
        present = true) := by
  by_cases same : other = task
  case neg =>
    refine ⟨true, ?_, fun _ => rfl⟩
    rw [task_createTaskwaitFragment_of_ne system same,
      if_neg fun both => same both.1]
  subst same
  rw [task_createTaskwaitFragment system other notAccess entry]
  simp only [Task.footprint, Function.update_self, ne_eq, reduceCtorEq,
    not_false_eq_true, Function.update_of_ne,
    IntervalMap.lookup_replace _ member, true_and, and_self]
  refine ⟨((((system.task other).objects .taskwaitFragments).insert
    entry.interval (taskwaitFragment other objectType
      entry.value.accessType)).lookup address).isSome ||
    decide (address ∉ entry.interval), ?_, ?_⟩
  · by_cases inside : address ∈ entry.interval
    · simp [inside]
    · by_cases fits : ((system.task other).objects .taskwaitFragments).Fits
          entry.interval
      · simp [inside, IntervalMap.lookup_insert _ fits]
      · simp [inside, IntervalMap.insert, fits]
  · intro fits
    rw [IntervalMap.lookup_insert _ fits]
    by_cases inside : address ∈ entry.interval
    · simp [inside]
    · simp [inside]

theorem Kept.createTaskwaitFragment {system : System} (kept : Kept system)
    {task : TaskId} {objectType : DataAccessObjectType}
    (entry : Piece BottomMapEntry) :
    Kept (Nanos6.createTaskwaitFragment system task objectType entry) := by
  have created : Kept (system.createObject task task .taskwaitFragments
      entry.interval
      (.of system.parent (createAccess task objectType
        entry.value.accessType false none))
      (taskwaitFragment task objectType entry.value.accessType)) :=
    kept.createObject rfl fun _ => ⟨rfl, rfl⟩
  unfold Nanos6.createTaskwaitFragment
  dsimp only
  generalize system.createObject task task .taskwaitFragments entry.interval
    _ _ = start at created ⊢
  have objects : ∀ other,
      ((start.modifyTask task fun current =>
        { current with
          subaccessBottomMap :=
            current.subaccessBottomMap.replace entry entry.interval
              (some ⟨⟨task, objectType⟩, entry.value.accessType⟩) }).task
        other).objects = (start.task other).objects := by
    intro other
    rw [System.task_modifyTask]
    split
    · rename_i same
      rw [same]
    · rfl
  refine created.congr ?_ ?_ ?_ fun _ updates => updates
  · intro other
    rw [objects]
    exact fun _ member => member
  · intro other
    rw [objects]
    exact created.subaccesses other
  · intro other before _
    simp only [Task.hasAccesses, objects] at before ⊢
    exact before

namespace Covered

variable {system next : System}

/-- A taskwait fragment appears while the task waits, or a sink over bytes
outside of the accesses. -/
theorem createTaskwaitFragment (covered : Covered system) {task : TaskId}
    {objectType : DataAccessObjectType} (notAccess : objectType ≠ .access)
    {entry : Piece BottomMapEntry}
    (member : entry ∈ (system.task task).subaccessBottomMap.pieces)
    (fits : objectType = .taskwait →
      ((system.task task).objects .taskwaitFragments).Fits entry.interval)
    (waits : (system.task task).status.waits = true ∨
      entry.value.accessType = .noAccess) :
    Covered
      (Nanos6.createTaskwaitFragment system task objectType entry) := by
  have control :=
    control_createTaskwaitFragment system task objectType entry
  have work : ∀ other,
      ((Nanos6.createTaskwaitFragment system task objectType entry).task
        other).work = (system.task other).work :=
    fun other => congrArg Control.work (congrFun control other)
  have status : ∀ other,
      ((Nanos6.createTaskwaitFragment system task objectType entry).task
        other).status = (system.task other).status :=
    fun other => congrArg Control.status (congrFun control other)
  have footprint :=
    footprint_createTaskwaitFragment system notAccess member
  have here : ∀ address ∈ entry.interval,
      ((system.task task).footprint address).entry = some entry.value :=
    fun address inside => IntervalMap.lookup_of_mem _ member inside
  refine covered.keeps
    (fun other => congrArg Control.parent (congrFun control other)) ?_ ?_ ?_
    ?_ ?_ ?_ ?_ ?_ ?_
  · intro other
    rw [work]
  · intro other
    rw [status]
    exact id
  · intro other
    rw [work]
    exact covered.alone other
  · intro other part partMember
    refine ⟨part, ?_, Nat.le_refl _, Nat.le_refl _⟩
    by_cases same : other = task
    · subst same
      rw [task_createTaskwaitFragment system other notAccess entry]
        at partMember
      simpa using partMember
    · rwa [task_createTaskwaitFragment_of_ne system same] at partMember
  · intro other address
    obtain ⟨present, equal, -⟩ := footprint other address
    rw [equal]
    split
    · rename_i both
      rw [both.1]
      rfl
    · rfl
  · intro other address
    obtain ⟨present, equal, -⟩ := footprint other address
    rw [equal]
    split
    · exact covered.aligned task address
    · exact covered.aligned other address
  · intro other address
    obtain ⟨present, equal, fitted⟩ := footprint other address
    rw [equal]
    split
    · rename_i both
      intro found isFound _
      cases isFound
      refine ⟨both.1.symm, fun isTaskwait => ?_⟩
      exact fitted (fits isTaskwait)
    · exact covered.rooted other address
  · intro other address awake mapped closed
    rw [status] at awake
    obtain ⟨present, equal, -⟩ := footprint other address
    rw [equal]
    split
    · rename_i both
      obtain ⟨rfl, inside⟩ := both
      have untyped := waits.resolve_left (by rw [awake]; simp)
      have before := mapped awake closed
      have aligned := covered.aligned other address
      unfold Footprint.Mapped at before ⊢
      unfold Footprint.Aligned at aligned
      -- An entry without a type stands outside of the accesses.
      split at before
      · rename_i type access
        rw [here address inside] at before
        rw [access] at aligned
        have typed : entry.value.accessType = type :=
          Option.some.inj before.1
        exact absurd (typed.symm.trans untyped) aligned.2
      · rw [here address inside] at before
        cases before.1
      · rename_i outside
        dsimp only
        rw [outside]
        intro found isFound
        cases isFound
        exact untyped
    · exact mapped awake closed
  · intro other address _ opened
    obtain ⟨present, equal, -⟩ := footprint other address
    rw [equal]
    split
    · rename_i both
      have free := opened.1
      rw [both.1, here address both.2] at free
      cases free
    · exact opened

theorem createTaskwait (covered : Covered system) (phased : Phased system)
    {task : TaskId} {low : Nat} {rest : List Work}
    (working : (system.task task).work = .createTaskwait low :: rest)
    (fits : ∀ entry, (system.task task).subaccessBottomMap.nextFrom low =
      some entry →
        ((system.task task).objects .taskwaitFragments).Fits entry.interval)
    (phasedNext : Phased (Nanos6.createTaskwait system task low rest)) :
    Covered (Nanos6.createTaskwait system task low rest) := by
  have creating : (system.task task).isCreating = true := by
    simp [Task.isCreating, working, Work.creates]
  have status := Task.status_of_creating (phased task) creating
  have differ : (system.task task).status ≠ .registering := by
    rcases status with status | status <;> simp [status]
  have waits : (system.task task).status.waits = true := by
    rcases status with status | status <;> simp [status, TaskStatus.waits]
  revert phasedNext
  unfold Nanos6.createTaskwait
  split
  · exact fun phasedNext => covered.continues phased phasedNext differ
  · rename_i entry found
    intro phasedNext
    have member := (IntervalMap.nextFrom_eq_some _ found).1
    have control :=
      control_createTaskwaitFragment system task .taskwait entry
    have created := covered.createTaskwaitFragment
      (by simp : DataAccessObjectType.taskwait ≠ .access) member
      (fun _ => fits entry found) (Or.inl waits)
    refine created.continues (phased.of_control control) phasedNext ?_
    intro registering
    exact differ ((congrArg Control.status (congrFun control task)).symm.trans
      registering)

theorem createTopLevelSink (covered : Covered system)
    (phased : Phased system) {task : TaskId} {low : Nat} {rest : List Work}
    (differ : (system.task task).status ≠ .registering)
    (phasedNext : Phased (Nanos6.createTopLevelSink system task low rest)) :
    Covered (Nanos6.createTopLevelSink system task low rest) := by
  revert phasedNext
  unfold Nanos6.createTopLevelSink
  split
  · exact fun phasedNext => covered.continues phased phasedNext differ
  · rename_i entry found
    have member := (IntervalMap.nextFrom_eq_some _ found).1
    split
    · exact fun phasedNext => covered.continues phased phasedNext differ
    · rename_i untyped
      intro phasedNext
      have control :=
        control_createTaskwaitFragment system task .topLevelSink entry
      have created := covered.createTaskwaitFragment
        (by simp : DataAccessObjectType.topLevelSink ≠ .access) member
        (fun isTaskwait => by cases isTaskwait)
        (Or.inr (by simpa using untyped))
      refine created.continues (phased.of_control control) phasedNext ?_
      intro registering
      exact differ
        ((congrArg Control.status (congrFun control task)).symm.trans
          registering)

end Covered

namespace TaskwaitsKept

variable {system next : System}

/-- The objects of a task with one more taskwait fragment or sink. -/
private theorem mem_createTaskwaitFragment {task other : TaskId}
    {objectType : DataAccessObjectType} (notAccess : objectType ≠ .access)
    {entry : Piece BottomMapEntry} {part : Piece DataAccess}
    (member : part ∈ (((Nanos6.createTaskwaitFragment system task objectType
      entry).task other).objects .taskwaitFragments).pieces) :
    part ∈ ((system.task other).objects .taskwaitFragments).pieces ∨
      (other = task ∧ part.value =
        taskwaitFragment task objectType entry.value.accessType) := by
  by_cases same : other = task
  · subst same
    rw [task_createTaskwaitFragment system other notAccess entry] at member
    simp only [Function.update_self] at member
    rcases IntervalMap.mem_insert _ member with rfl | old
    · exact Or.inr ⟨rfl, rfl⟩
    · exact Or.inl old
  · rw [task_createTaskwaitFragment_of_ne system same] at member
    exact Or.inl member

/-- A taskwait fragment appears while the task waits, or a sink when its
accesses are being unregistered. -/
theorem createTaskwaitFragment (taskwaits : TaskwaitsKept system)
    {task : TaskId} {objectType : DataAccessObjectType}
    {entry : Piece BottomMapEntry}
    (member : entry ∈ (system.task task).subaccessBottomMap.pieces)
    (kind : (objectType = .taskwait ∧
        (system.task task).status.waits = true) ∨
      (objectType = .topLevelSink ∧
        (system.task task).status = .releasing))
    {work : List Work}
    (previous : ∀ previous region, .linkToTaskwait previous region ∈ work →
      previous.objectType.map = .taskwaitFragments →
        previous.task = task ∧ (system.task task).status.waits = false) :
    TaskwaitsKept
      ((Nanos6.createTaskwaitFragment system task objectType entry).setWork
        task work) := by
  have notAccess : objectType ≠ .access := by
    rcases kind with ⟨rfl, -⟩ | ⟨rfl, -⟩ <;> simp
  have sets := setsWork_setWork system task
    (control_createTaskwaitFragment system task objectType entry) work
  have unchanged : Restated (fun _ => False)
      (Nanos6.createTaskwaitFragment system task objectType entry)
      ((Nanos6.createTaskwaitFragment system task objectType entry).setWork
        task work) :=
    Restated.refl.setWork task work
  have hasAccesses : ∀ other,
      (((Nanos6.createTaskwaitFragment system task objectType entry).setWork
        task work).task other).hasAccesses =
          (system.task other).hasAccesses := by
    intro other
    rw [unchanged.hasAccesses]
    by_cases same : other = task
    · subst same
      rw [task_createTaskwaitFragment system other notAccess entry]
      simp [Task.hasAccesses]
    · rw [task_createTaskwaitFragment_of_ne system same]
  refine ⟨unchanged.kept (taskwaits.kept.createTaskwaitFragment entry), ?_,
    ?_, ?_, ?_⟩
  · intro other awake early
    rw [sets.status] at awake early
    have absent := taskwaits.absent other awake early
    rw [System.objects_setWork, List.eq_nil_iff_forall_not_mem]
    intro part partMember
    rcases mem_createTaskwaitFragment notAccess partMember with
      old | ⟨same, -⟩
    · rw [absent] at old
      cases old
    · subst same
      rcases kind with ⟨-, waits⟩ | ⟨-, releasing⟩
      · rw [waits] at awake
        cases awake
      · rw [releasing] at early
        cases early
  · intro other waiting part partMember
    rw [sets.status] at waiting
    rw [System.objects_setWork] at partMember
    rw [hasAccesses]
    rcases mem_createTaskwaitFragment notAccess partMember with
      old | ⟨same, value⟩
    · exact taskwaits.waits other waiting part old
    · subst same
      rcases kind with ⟨isTaskwait, -⟩ | ⟨-, releasing⟩
      · rw [value, isTaskwait]
        exact ⟨rfl, fun hasNext => by cases hasNext⟩
      · rw [releasing] at waiting
        cases waiting
  · intro other address found isFound isSink
    rw [sets.status]
    rw [System.footprint_setWork] at isFound
    obtain ⟨present, equal, -⟩ :=
      footprint_createTaskwaitFragment system notAccess member other address
    rw [equal] at isFound
    split at isFound
    · rename_i both
      cases isFound
      rcases kind with ⟨isTaskwait, -⟩ | ⟨-, releasing⟩
      · rw [isTaskwait] at isSink
        cases isSink
      · rw [both.1, releasing]
        rfl
    · exact taskwaits.sinks other address found isFound isSink
  · intro other link region inWork
    rw [sets.status]
    rw [sets.work] at inWork
    split at inWork
    · rename_i same
      rw [same]
      exact previous link region inWork
    · exact taskwaits.previous other link region inWork

theorem createTaskwait (taskwaits : TaskwaitsKept system)
    (covered : Covered system) (phased : Phased system) {task : TaskId}
    {low : Nat} {rest : List Work}
    (working : (system.task task).work = .createTaskwait low :: rest)
    (fits : ∀ entry, (system.task task).subaccessBottomMap.nextFrom low =
      some entry →
        ((system.task task).objects .taskwaitFragments).Fits entry.interval) :
    TaskwaitsKept (Nanos6.createTaskwait system task low rest) := by
  have creating : (system.task task).isCreating = true := by
    simp [Task.isCreating, working, Work.creates]
  have status := Task.status_of_creating (phased task) creating
  have waits : (system.task task).status.waits = true := by
    rcases status with status | status <;> simp [status, TaskStatus.waits]
  have restPrevious : ∀ previous region,
      .linkToTaskwait previous region ∈ rest →
      previous.objectType.map = .taskwaitFragments →
        previous.task = task ∧ (system.task task).status.waits = false := by
    intro link region inRest
    refine taskwaits.previous task link region ?_
    rw [working]
    exact List.mem_cons_of_mem _ inRest
  unfold Nanos6.createTaskwait
  split
  · exact taskwaits.restates (Restated.refl.setWork task rest)
      (setsWork_setWork system task rfl rest) restPrevious
  · rename_i entry found
    have member := (IntervalMap.nextFrom_eq_some _ found).1
    refine taskwaits.createTaskwaitFragment member (Or.inl ⟨rfl, waits⟩) ?_
    intro link region inWork isTaskwait
    simp only [List.mem_cons, Work.linkToTaskwait.injEq, reduceCtorEq,
      false_or] at inWork
    rcases inWork with ⟨rfl, -⟩ | inRest
    · -- No taskwait fragment is there yet, so the entry leads to none.
      exfalso
      have positive := IntervalMap.nonempty _ entry member
      have start : entry.interval.start ∈ entry.interval :=
        ⟨Nat.le_refl _, positive⟩
      have here : ((system.task task).footprint
          entry.interval.start).entry = some entry.value :=
        IntervalMap.lookup_of_mem _ member start
      cases kind : entry.value.link.objectType with
      | access =>
          rw [kind] at isTaskwait
          cases isTaskwait
      | fragment =>
          rw [kind] at isTaskwait
          cases isTaskwait
      | taskwait =>
          have present :=
            (covered.rooted task _ entry.value here isTaskwait).2 kind
          have absent := IntervalMap.lookup_of_fits _ (fits entry found) start
          simp [Task.footprint, absent] at present
      | topLevelSink =>
          have releases := taskwaits.sinks task _ entry.value here kind
          rcases status with status | status <;>
            simp [status, TaskStatus.releases] at releases
    · exact restPrevious link region inRest isTaskwait

theorem createTopLevelSink (taskwaits : TaskwaitsKept system)
    (covered : Covered system) {task : TaskId} {low : Nat}
    {rest : List Work}
    (working : (system.task task).work = .createTopLevelSink low :: rest)
    (releasing : (system.task task).status = .releasing) :
    TaskwaitsKept (Nanos6.createTopLevelSink system task low rest) := by
  have awake : (system.task task).status.waits = false := by
    rw [releasing]
    rfl
  have restPrevious : ∀ previous region,
      .linkToTaskwait previous region ∈ rest →
      previous.objectType.map = .taskwaitFragments →
        previous.task = task ∧ (system.task task).status.waits = false := by
    intro link region inRest
    refine taskwaits.previous task link region ?_
    rw [working]
    exact List.mem_cons_of_mem _ inRest
  unfold Nanos6.createTopLevelSink
  split
  · exact taskwaits.restates (Restated.refl.setWork task rest)
      (setsWork_setWork system task rfl rest) restPrevious
  · rename_i entry found
    have member := (IntervalMap.nextFrom_eq_some _ found).1
    split
    · refine taskwaits.restates (Restated.refl.setWork task _)
        (setsWork_setWork system task rfl _) ?_
      intro link region inWork
      simp only [List.mem_cons, reduceCtorEq, false_or] at inWork
      exact restPrevious link region inWork
    · refine taskwaits.createTaskwaitFragment member
        (Or.inr ⟨rfl, releasing⟩) ?_
      intro link region inWork isTaskwait
      simp only [List.mem_cons, Work.linkToTaskwait.injEq, reduceCtorEq,
        false_or] at inWork
      rcases inWork with ⟨rfl, -⟩ | inRest
      · have positive := IntervalMap.nonempty _ entry member
        exact ⟨(covered.rooted task _ entry.value
          (IntervalMap.lookup_of_mem _ member ⟨Nat.le_refl _, positive⟩)
          isTaskwait).1, awake⟩
      · exact restPrevious link region inRest isTaskwait

end TaskwaitsKept

end Nanos6
