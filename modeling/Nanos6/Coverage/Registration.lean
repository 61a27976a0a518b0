import Nanos6.Coverage.Restated

/-!
# Coverage during a registration

While an access of a child is matched against the bottom map of the parent, the
bytes up to which the matching has come have lost their entries; the entry of
the child takes their place at the end, with the type that the last match has
recorded.  That type is right for all the bytes when the access of the child
meets accesses of the parent of one type only.
-/

namespace Nanos6

open Foundation

/-- How far the first loop of a list has come with matching an access. -/
def Work.linkProgress : List Work → Option LinkProgress
  | .replaceMatching progress :: _ => some progress
  | _ => none

/-- Accesses are matched one after another. -/
def Work.Alone (work : List Work) : Prop :=
  ∀ loop ∈ work.tail, ∀ progress, loop ≠ .replaceMatching progress

theorem Work.linkProgress_of_alone {head : Work} {rest : List Work}
    (alone : Work.Alone (head :: rest)) : Work.linkProgress rest = none := by
  cases rest with
  | nil => rfl
  | cons loop others =>
      cases loop with
      | replaceMatching other =>
          exact absurd rfl (alone (.replaceMatching other) (by simp) other)
      | _ => rfl

/-- The byte of `task` has been matched with an access of a child that is being
registered. -/
def System.OpenAt (system : System) (task : TaskId) (address : Nat) : Prop :=
  ∃ child progress, (system.task child).parent = some task ∧
    Work.linkProgress (system.task child).work = some progress ∧
    progress.region.start ≤ address ∧ address < progress.remaining.start

/-- The region lies inside of accesses of one type or outside of all. -/
def Task.Nests (task : Task) (region : DataAccessRegion) : Prop :=
  (∃ type, type ≠ .noAccess ∧
      ∀ address ∈ region,
        (task.footprint address).accessType = some type) ∨
    ∀ address ∈ region, (task.footprint address).accessType = none

/-- Every entry of the bottom map that the matching of an access of `child` is
still going to meet leads to an object. -/
def System.meetsObjects (system : System) (child : TaskId) : Bool :=
  match (system.task child).parent,
      Work.linkProgress (system.task child).work with
  | some parent, some progress =>
      (system.task parent).subaccessBottomMap.pieces.all fun entry =>
        let region := entry.interval.inter progress.remaining
        let target := entry.value.link
        !decide region.Nonempty ||
          (((system.task target.task).objects target.objectType.map).firstIn
            region.start region.stop).isSome
  | _, _ => true

theorem firstIn_of_meetsObjects {system : System} {child parent : TaskId}
    {progress : LinkProgress} {rest : List Work}
    (working :
      (system.task child).work = .replaceMatching progress :: rest)
    (parentIs : (system.task child).parent = some parent)
    (meetsObjects : system.meetsObjects child = true)
    {entry : Piece BottomMapEntry}
    (member : entry ∈ (system.task parent).subaccessBottomMap.pieces)
    (meets : entry.interval.Meets progress.remaining) :
    ((system.task entry.value.link.task).objects
      entry.value.link.objectType.map).firstIn
        (entry.interval.inter progress.remaining).start
        (entry.interval.inter progress.remaining).stop ≠ none := by
  have linking :
      Work.linkProgress (system.task child).work = some progress := by
    rw [working]
    rfl
  simp only [System.meetsObjects, parentIs, linking, List.all_eq_true,
    Bool.or_eq_true, Bool.not_eq_true', decide_eq_false_iff_not]
    at meetsObjects
  rw [← Option.isSome_iff_ne_none]
  exact (meetsObjects entry member).resolve_left fun empty => empty meets

/-- The matching of an access fits the accesses of the parent: once something
has been matched, the recorded type is theirs. -/
structure LinkProgress.Fits (progress : LinkProgress) (parent : Task) :
    Prop where
  positive : progress.region.Nonempty
  above : progress.region.start ≤ progress.remaining.start
  below : progress.remaining.start ≤ progress.region.stop
  stop : progress.remaining.stop = progress.region.stop
  type :
    (∃ type, type ≠ .noAccess ∧
        (∀ address ∈ progress.region,
          (parent.footprint address).accessType = some type) ∧
        (progress.region.start < progress.remaining.start →
          progress.parentAccessType = type)) ∨
      ((∀ address ∈ progress.region,
          (parent.footprint address).accessType = none) ∧
        progress.parentAccessType = .noAccess)

/-- The accesses, fragments and bottom maps of all tasks agree byte by byte. -/
structure Covered (system : System) : Prop where
  aligned : ∀ task address, ((system.task task).footprint address).Aligned
  rooted : ∀ task address,
    ((system.task task).footprint address).Rooted task
  mapped : ∀ task address, (system.task task).status.waits = false →
    ¬ system.OpenAt task address →
      ((system.task task).footprint address).Mapped
  opened : ∀ task address, system.OpenAt task address →
    ((system.task task).footprint address).Opened
  nested : ∀ child parent, (system.task child).status = .registering →
    (system.task child).parent = some parent →
      ∀ piece ∈ ((system.task child).objects .accesses).pieces,
        (system.task parent).Nests piece.interval
  fits : ∀ child parent progress,
    (system.task child).parent = some parent →
      Work.linkProgress (system.task child).work = some progress →
        progress.Fits (system.task parent)
  alone : ∀ task, Work.Alone (system.task task).work

@[simp]
theorem System.footprint_setWork (system : System) (task other : TaskId)
    (work : List Work) (address : Nat) :
    ((system.setWork task work).task other).footprint address =
      (system.task other).footprint address := by
  simp only [System.setWork, System.task_modifyTask]
  split
  · rename_i same
    rw [same]
    rfl
  · rfl

@[simp]
theorem System.objects_setWork (system : System) (task other : TaskId)
    (work : List Work) :
    ((system.setWork task work).task other).objects =
      (system.task other).objects := by
  simp only [System.setWork, System.task_modifyTask]
  split
  · rename_i same
    rw [same]
  · rfl

theorem Task.Nests.mono {before after : Task} {whole part : DataAccessRegion}
    (nests : before.Nests whole)
    (types : ∀ address, (after.footprint address).accessType =
      (before.footprint address).accessType)
    (below : whole.start ≤ part.start) (above : part.stop ≤ whole.stop) :
    after.Nests part := by
  have within : ∀ address ∈ part, address ∈ whole := by
    intro address inside
    simp only [Interval.mem_iff] at *
    omega
  rcases nests with ⟨type, proper, same⟩ | outside
  · refine Or.inl ⟨type, proper, fun address inside => ?_⟩
    rw [types]
    exact same address (within address inside)
  · refine Or.inr fun address inside => ?_
    rw [types]
    exact outside address (within address inside)

theorem LinkProgress.Fits.congr {progress : LinkProgress}
    {before after : Task} (fits : progress.Fits before)
    (types : ∀ address, (after.footprint address).accessType =
      (before.footprint address).accessType) :
    progress.Fits after where
  positive := fits.positive
  above := fits.above
  below := fits.below
  stop := fits.stop
  type := by
    simp only [types]
    exact fits.type

/-- Only a task that is being registered links its accesses. -/
theorem Enrolled.registering_of_linkProgress {system : System}
    (enrolled : Enrolled system) {task : TaskId} {progress : LinkProgress}
    (linking : Work.linkProgress (system.task task).work = some progress) :
    (system.task task).status = .registering := by
  unfold Work.linkProgress at linking
  split at linking
  · rename_i other rest working
    exact (enrolled.isRegistering working rfl).1
  · cases linking

/-- A parent registers one child at a time. -/
theorem Orderly.eq_of_linkProgress {system : System}
    (orderly : Orderly system) (enrolled : Enrolled system)
    {first second parent : TaskId} {progress other : LinkProgress}
    (firstParent : (system.task first).parent = some parent)
    (secondParent : (system.task second).parent = some parent)
    (firstLinks :
      Work.linkProgress (system.task first).work = some progress)
    (secondLinks :
      Work.linkProgress (system.task second).work = some other) :
    first = second := by
  have registrar : ∀ child progress,
      (system.task child).parent = some parent →
      Work.linkProgress (system.task child).work = some progress →
      (system.control parent).registeringChild = some child := by
    intro child progress parentIs linking
    obtain ⟨found, foundIs, registers⟩ :=
      orderly.registers child (enrolled.registering_of_linkProgress linking)
    have same : (system.task child).parent = some found := foundIs
    rw [parentIs] at same
    obtain rfl := Option.some.inj same
    exact registers
  have firstChild := registrar first progress firstParent firstLinks
  rw [registrar second other secondParent secondLinks] at firstChild
  exact (Option.some.inj firstChild).symm

/-- Only a registration matches accesses. -/
theorem WorkFits.ne_replaceMatching {status : TaskStatus} {work : List Work}
    (fits : WorkFits status work) (differ : status ≠ .registering) :
    ∀ loop ∈ work, ∀ progress, loop ≠ .replaceMatching progress := by
  obtain ⟨loops, rfl, allowed⟩ := fits
  rintro loop member progress rfl
  rcases List.mem_append.mp member with inLoops | inLast
  · have permitted := allowed _ inLoops
    revert differ permitted
    cases status <;> simp [TaskStatus.allows]
  · revert differ inLast
    cases status <;> simp [TaskStatus.last]

theorem WorkFits.alone {status : TaskStatus} {work : List Work}
    (fits : WorkFits status work) (differ : status ≠ .registering) :
    Work.Alone work :=
  fun loop member =>
    fits.ne_replaceMatching differ loop (List.mem_of_mem_tail member)

theorem WorkFits.linkProgress_eq_none {status : TaskStatus}
    {work : List Work} (fits : WorkFits status work)
    (differ : status ≠ .registering) : Work.linkProgress work = none := by
  have never := fits.ne_replaceMatching differ
  cases work with
  | nil => rfl
  | cons loop rest =>
      cases loop with
      | replaceMatching progress =>
          exact absurd rfl (never _ (by simp) progress)
      | _ => rfl

/-- From the point on that the matching has reached, no byte is open. -/
theorem Orderly.closed_of_linkProgress {system : System}
    (orderly : Orderly system) (enrolled : Enrolled system)
    {child parent : TaskId} {progress : LinkProgress}
    (parentIs : (system.task child).parent = some parent)
    (linking : Work.linkProgress (system.task child).work = some progress)
    {address : Nat} (above : progress.remaining.start ≤ address) :
    ¬ system.OpenAt parent address := by
  rintro ⟨other, found, otherParent, otherLinks, -, below⟩
  have same :=
    orderly.eq_of_linkProgress enrolled otherParent parentIs otherLinks
      linking
  subst same
  rw [linking] at otherLinks
  obtain rfl := Option.some.inj otherLinks
  exact absurd above (Nat.not_le.mpr below)

/-- The parent of a task that is being registered runs. -/
theorem Orderly.running_of_linkProgress {system : System}
    (orderly : Orderly system) (enrolled : Enrolled system)
    {child parent : TaskId} {progress : LinkProgress}
    (parentIs : (system.task child).parent = some parent)
    (linking : Work.linkProgress (system.task child).work = some progress) :
    (system.task parent).status = .running := by
  obtain ⟨registrar, registrarIs, registers⟩ :=
    orderly.registers child (enrolled.registering_of_linkProgress linking)
  have same : (system.task child).parent = some registrar := registrarIs
  rw [parentIs] at same
  obtain rfl := Option.some.inj same
  exact (orderly.running parent child registers).1

theorem SetsWork.parent {system next : System} {task : TaskId}
    {work : List Work} (sets : SetsWork system task next work)
    (other : TaskId) :
    (next.task other).parent = (system.task other).parent := by
  have control := congrFun sets other
  by_cases same : other = task
  · subst same
    rw [Function.update_self] at control
    exact congrArg Control.parent control
  · rw [Function.update_of_ne same] at control
    exact congrArg Control.parent control

theorem SetsWork.status {system next : System} {task : TaskId}
    {work : List Work} (sets : SetsWork system task next work)
    (other : TaskId) :
    (next.task other).status = (system.task other).status := by
  have control := congrFun sets other
  by_cases same : other = task
  · subst same
    rw [Function.update_self] at control
    exact congrArg Control.status control
  · rw [Function.update_of_ne same] at control
    exact congrArg Control.status control

theorem SetsWork.work {system next : System} {task : TaskId}
    {work : List Work} (sets : SetsWork system task next work)
    (other : TaskId) :
    (next.task other).work =
      if other = task then work else (system.task other).work := by
  have control := congrFun sets other
  by_cases same : other = task
  · subst same
    rw [Function.update_self] at control
    rw [if_pos rfl]
    exact congrArg Control.work control
  · rw [Function.update_of_ne same] at control
    rw [if_neg same]
    exact congrArg Control.work control

/-- Objects change their status, and the bottom map of `parent` loses its
entries over `target`. -/
def Unmaps (links : TaskId → Prop) (system next : System) (parent : TaskId)
    (target : Interval) : Prop :=
  ∃ linked, Restated links system linked ∧
    (∀ task, (next.task task).objects = (linked.task task).objects) ∧
    (∀ task, (next.task task).subaccessBottomMap =
      if task = parent then
        (linked.task parent).subaccessBottomMap.eraseInterval target
      else (linked.task task).subaccessBottomMap) ∧
    ∀ task, next.updatesBottomMap task = linked.updatesBottomMap task

namespace Unmaps

variable {links : TaskId → Prop} {system next : System} {parent : TaskId}
  {target : Interval}

theorem of_eq (unmaps : Unmaps links system next parent target)
    {other : Interval} (same : target = other) :
    Unmaps links system next parent other := by
  rw [← same]
  exact unmaps

theorem kept (unmaps : Unmaps links system next parent target)
    (kept : Kept system) : Kept next := by
  obtain ⟨linked, restated, objects, -, updates⟩ := unmaps
  have linkedKept := restated.kept kept
  have sameAccesses : ∀ task,
      (next.task task).hasAccesses = (linked.task task).hasAccesses := by
    intro task
    simp only [Task.hasAccesses, objects]
  refine ⟨?_, ?_, ?_⟩
  · intro task
    rw [objects]
    exact linkedKept.taskwaits task
  · intro task
    rw [objects]
    exact linkedKept.subaccesses task
  · intro task updating
    rw [updates] at updating
    rw [sameAccesses]
    exact linkedKept.updates task updating

theorem inside (unmaps : Unmaps links system next parent target) {task : TaskId}
    {map : AccessMap} {part : Piece DataAccess}
    (member : part ∈ ((next.task task).objects map).pieces) :
    ∃ old ∈ ((system.task task).objects map).pieces,
      old.interval.start ≤ part.interval.start ∧
        part.interval.stop ≤ old.interval.stop := by
  obtain ⟨linked, restated, objects, -, -⟩ := unmaps
  rw [objects] at member
  exact restated.inside member

theorem objectType (unmaps : Unmaps links system next parent target)
    {task : TaskId} {map : AccessMap} {part : Piece DataAccess}
    (member : part ∈ ((next.task task).objects map).pieces) :
    ∃ old ∈ ((system.task task).objects map).pieces,
      part.value.objectType = old.value.objectType := by
  obtain ⟨linked, restated, objects, -, -⟩ := unmaps
  rw [objects] at member
  exact restated.objectType member

theorem hasAccesses (unmaps : Unmaps links system next parent target)
    (task : TaskId) :
    (next.task task).hasAccesses = (system.task task).hasAccesses := by
  obtain ⟨linked, restated, objects, -, -⟩ := unmaps
  rw [← restated.hasAccesses]
  simp only [Task.hasAccesses, objects]

theorem linked (unmaps : Unmaps links system next parent target)
    {task : TaskId} {part : Piece DataAccess}
    (member : part ∈ ((next.task task).objects .taskwaitFragments).pieces)
    (hasNext : part.value.hasNext = true) :
    links task ∨
      ∃ old ∈ ((system.task task).objects .taskwaitFragments).pieces,
        old.value.hasNext = true := by
  obtain ⟨linked, restated, objects, -, -⟩ := unmaps
  rw [objects] at member
  exact restated.linked member hasNext

theorem footprint (unmaps : Unmaps links system next parent target)
    (task : TaskId) (address : Nat) :
    ∃ middle, Footprint.Erodes ((system.task task).footprint address) middle ∧
      (next.task task).footprint address =
        if task = parent ∧ address ∈ target then
          { middle with entry := none }
        else middle := by
  obtain ⟨linked, restated, objects, bottomMap, -⟩ := unmaps
  refine ⟨(linked.task task).footprint address,
    restated.erodes task address, ?_⟩
  have read :
      (next.task task).footprint address =
        { (linked.task task).footprint address with
          entry := (next.task task).subaccessBottomMap.lookup address } := by
    simp only [Task.footprint, objects]
  rw [read, bottomMap]
  by_cases same : task = parent
  · subst same
    rw [if_pos rfl, IntervalMap.lookup_eraseInterval]
    by_cases within : address ∈ target
    · rw [if_pos within, if_pos ⟨rfl, within⟩]
    · rw [if_neg within, if_neg fun both => within both.2]
      rfl
  · rw [if_neg same, if_neg fun both => same both.1]
    rfl

end Unmaps

theorem unmaps_linkPrevious {links : TaskId → Prop} {system : System}
    (accounted : Accounted system)
    {task parent previousTask : TaskId} (parentDiffers : parent ≠ task)
    {progress : LinkProgress} {map : AccessMap} {piece : Piece DataAccess}
    (differ : previousTask ≠ task)
    (member : piece ∈ ((system.task previousTask).objects map).pieces)
    {region : DataAccessRegion} (meets : piece.interval.Meets region)
    (taskwait : map = .taskwaitFragments → links previousTask)
    {parentAccessType : DataAccessType} {rest : List Work}
    (clean : (linkPrevious system task parent progress map previousTask piece
      region parentAccessType rest).assertionFailed = false) :
    Unmaps links system
      (linkPrevious system task parent progress map previousTask piece region
        parentAccessType rest)
      parent ⟨region.start, (piece.interval.inter region).stop⟩ := by
  have accountedStart :=
    accounted.allocateForPrevious task progress piece.value
  have allocates :
      (allocateForPrevious system task progress
        piece.value).1.assertionFailed = false →
      Restated links system (allocateForPrevious system task progress
        piece.value).1 :=
    restated_allocateForPrevious accounted
  have untouched :=
    task_allocateForPrevious_of_ne system progress piece.value differ
  unfold linkPrevious at clean ⊢
  generalize allocateForPrevious system task progress piece.value =
    outcome at *
  obtain ⟨start, decided⟩ := outcome
  dsimp only at *
  have asserted : (start.assertionFailed || _ || _) = false := clean
  simp only [Bool.or_eq_false_iff] at asserted
  have cleanStart := asserted.1.1
  rw [← untouched] at member
  refine ⟨_, (allocates cleanStart).adds (accountedStart cleanStart _) member
    meets (Setter.adds_linkTo _) (Setter.keepsShape_linkTo _) clean
    fun isTaskwait _ => Or.inr (taskwait isTaskwait), ?_, ?_, fun _ => rfl⟩
  · intro other
    simp only [System.setWork, System.task_modifyTask]
    split
    · rename_i same
      subst same
      rw [if_neg parentDiffers.symm]
    · split
      · rename_i same
        rw [same]
      · rfl
  · intro other
    simp only [System.setWork, System.task_modifyTask]
    split
    · rename_i same
      subst same
      rw [if_neg parentDiffers.symm, if_neg parentDiffers.symm]
    · by_cases same : other = parent
      · rw [if_pos same, if_pos same]
      · rw [if_neg same, if_neg same]

namespace Covered

variable {links : TaskId → Prop} {system next : System}

/-- The footprints change as they may, and no byte is opened or closed. -/
theorem keeps (covered : Covered system)
    (parent : ∀ task, (next.task task).parent = (system.task task).parent)
    (linking : ∀ task, Work.linkProgress (next.task task).work =
      Work.linkProgress (system.task task).work)
    (registering : ∀ task, (next.task task).status = .registering →
      (system.task task).status = .registering)
    (alone : ∀ task, Work.Alone (next.task task).work)
    (inside : ∀ task, ∀ part ∈ ((next.task task).objects .accesses).pieces,
      ∃ old ∈ ((system.task task).objects .accesses).pieces,
        old.interval.start ≤ part.interval.start ∧
          part.interval.stop ≤ old.interval.stop)
    (types : ∀ task address,
      ((next.task task).footprint address).accessType =
        ((system.task task).footprint address).accessType)
    (aligned : ∀ task address,
      ((next.task task).footprint address).Aligned)
    (rooted : ∀ task address,
      ((next.task task).footprint address).Rooted task)
    (mapped : ∀ task address, (next.task task).status.waits = false →
      ((system.task task).status.waits = false →
        ¬ system.OpenAt task address →
          ((system.task task).footprint address).Mapped) →
      ¬ system.OpenAt task address →
        ((next.task task).footprint address).Mapped)
    (opened : ∀ task address, system.OpenAt task address →
      ((system.task task).footprint address).Opened →
        ((next.task task).footprint address).Opened) :
    Covered next := by
  have sameOpen : ∀ task address,
      next.OpenAt task address ↔ system.OpenAt task address := by
    intro task address
    simp only [System.OpenAt, parent, linking]
  refine ⟨aligned, rooted, ?_, ?_, ?_, ?_, alone⟩
  · intro task address awake closed
    rw [sameOpen] at closed
    exact mapped task address awake (covered.mapped task address) closed
  · intro task address isOpen
    rw [sameOpen] at isOpen
    exact opened task address isOpen (covered.opened task address isOpen)
  · intro child parentTask status parentIs part member
    rw [parent] at parentIs
    obtain ⟨old, oldMember, below, above⟩ := inside child part member
    exact (covered.nested child parentTask (registering child status)
      parentIs old oldMember).mono (types parentTask) below above
  · intro child parentTask progress parentIs links
    rw [parent] at parentIs
    rw [linking] at links
    exact (covered.fits child parentTask progress parentIs links).congr
      (types parentTask)

/-- Changes of the status of objects, whatever the control does meanwhile. -/
theorem restated (covered : Covered system)
    (restated : Restated links system next)
    (parent : ∀ task, (next.task task).parent = (system.task task).parent)
    (linking : ∀ task, Work.linkProgress (next.task task).work =
      Work.linkProgress (system.task task).work)
    (registering : ∀ task, (next.task task).status = .registering →
      (system.task task).status = .registering)
    (waits : ∀ task, (next.task task).status.waits = false →
      (system.task task).status.waits = false)
    (alone : ∀ task, Work.Alone (next.task task).work) :
    Covered next :=
  covered.keeps parent linking registering alone
    (fun _ _ member => restated.inside member)
    (fun task address => (restated.erodes task address).accessType)
    (fun task address =>
      (covered.aligned task address).erodes (restated.erodes task address))
    (fun task address =>
      (covered.rooted task address).erodes (restated.erodes task address))
    (fun task address awake mapped closed =>
      (mapped (waits task awake) closed).erodes
        (restated.erodes task address))
    fun task address _ opened =>
      opened.erodes (restated.erodes task address)

/-- Changes of the status of objects that leave the control alone. -/
theorem restated_of_control (covered : Covered system)
    (restated : Restated links system next)
    (control : next.control = system.control) : Covered next := by
  have status : ∀ task, (next.task task).status =
      (system.task task).status :=
    fun task => congrArg Control.status (congrFun control task)
  have work : ∀ task, (next.task task).work = (system.task task).work :=
    fun task => congrArg Control.work (congrFun control task)
  refine covered.restated restated
    (fun task => congrArg Control.parent (congrFun control task))
    (fun task => by rw [work]) ?_ ?_ ?_
  · intro task
    rw [status]
    exact id
  · intro task
    rw [status]
    exact id
  · intro task
    rw [work]
    exact covered.alone task

/-- Another work that matches nothing else. -/
theorem setWork (covered : Covered system) {task : TaskId}
    {work : List Work}
    (linking : Work.linkProgress work =
      Work.linkProgress (system.task task).work)
    (alone : Work.Alone work) : Covered (system.setWork task work) := by
  have sets := setsWork_setWork system task rfl work
  have unchanged : Restated (fun _ => False) system
      (system.setWork task work) :=
    Restated.refl.setWork task work
  refine covered.restated unchanged sets.parent ?_ ?_ ?_ ?_
  · intro other
    rw [sets.work]
    split
    · rename_i same
      rw [same, linking]
    · rfl
  · intro other status
    rwa [sets.status] at status
  · intro other awake
    rwa [sets.status] at awake
  · intro other
    rw [sets.work]
    split
    · exact alone
    · exact covered.alone other

/-- The operation of a task that is not being registered goes on. -/
theorem continues (covered : Covered system) {task : TaskId}
    {work : List Work} (phased : Phased system)
    (phasedNext : Phased (system.setWork task work))
    (differ : (system.task task).status ≠ .registering) :
    Covered (system.setWork task work) := by
  have fits := phased task
  have fitsNext := phasedNext task
  rw [System.control_setWork, Function.update_self] at fitsNext
  refine covered.setWork ?_ (fitsNext.alone differ)
  exact (fitsNext.linkProgress_eq_none differ).trans
    (fits.linkProgress_eq_none differ).symm

/-- The matching of an access goes on, and the bytes that it reaches lose
their entries. -/
theorem opens (covered : Covered system) {child parent : TaskId}
    {progress reached : LinkProgress} {rest : List Work}
    (working :
      (system.task child).work = .replaceMatching progress :: rest)
    (parentIs : (system.task child).parent = some parent)
    (sets : SetsWork system child next (.replaceMatching reached :: rest))
    (region : reached.region = progress.region)
    (later : progress.remaining.start ≤ reached.remaining.start)
    (fits : reached.Fits (system.task parent))
    (inside : ∀ task, ∀ part ∈ ((next.task task).objects .accesses).pieces,
      ∃ old ∈ ((system.task task).objects .accesses).pieces,
        old.interval.start ≤ part.interval.start ∧
          part.interval.stop ≤ old.interval.stop)
    (types : ∀ task address,
      ((next.task task).footprint address).accessType =
        ((system.task task).footprint address).accessType)
    (aligned : ∀ task address,
      ((next.task task).footprint address).Aligned)
    (rooted : ∀ task address,
      ((next.task task).footprint address).Rooted task)
    (mapped : ∀ task address,
      ((system.task task).footprint address).Mapped →
      (task = parent → progress.remaining.start ≤ address →
        reached.remaining.start ≤ address) →
      ((next.task task).footprint address).Mapped)
    (opened : ∀ task address,
      ((system.task task).footprint address).Opened →
      ((next.task task).footprint address).Opened)
    (new : ∀ address, progress.remaining.start ≤ address →
      address < reached.remaining.start →
      ((next.task parent).footprint address).Opened) :
    Covered next := by
  have linking :
      Work.linkProgress (system.task child).work = some progress := by
    rw [working]
    rfl
  have links : ∀ other, other ≠ child →
      Work.linkProgress (next.task other).work =
        Work.linkProgress (system.task other).work := by
    intro other differ
    rw [sets.work, if_neg differ]
  have linksNow :
      Work.linkProgress (next.task child).work = some reached := by
    rw [sets.work, if_pos rfl]
    rfl
  have stillOpen : ∀ task address, system.OpenAt task address →
      next.OpenAt task address := by
    rintro task address ⟨other, found, otherParent, otherLinks, above, below⟩
    by_cases same : other = child
    · subst same
      rw [linking] at otherLinks
      obtain rfl := Option.some.inj otherLinks
      refine ⟨other, reached, ?_, linksNow, ?_, Nat.lt_of_lt_of_le below later⟩
      · rw [sets.parent]
        exact otherParent
      · rw [region]
        exact above
    · refine ⟨other, found, ?_, ?_, above, below⟩
      · rw [sets.parent]
        exact otherParent
      · rw [links other same]
        exact otherLinks
  have openBefore : ∀ task address, next.OpenAt task address →
      system.OpenAt task address ∨
        (task = parent ∧ progress.remaining.start ≤ address ∧
          address < reached.remaining.start) := by
    rintro task address ⟨other, found, otherParent, otherLinks, above, below⟩
    rw [sets.parent] at otherParent
    by_cases same : other = child
    · subst same
      rw [linksNow] at otherLinks
      obtain rfl := Option.some.inj otherLinks
      rw [parentIs] at otherParent
      obtain rfl := Option.some.inj otherParent
      by_cases old : address < progress.remaining.start
      · refine Or.inl ⟨other, progress, parentIs, linking, ?_, old⟩
        rw [← region]
        exact above
      · exact Or.inr ⟨rfl, Nat.le_of_not_lt old, below⟩
    · rw [links other same] at otherLinks
      exact Or.inl ⟨other, found, otherParent, otherLinks, above, below⟩
  refine ⟨aligned, rooted, ?_, ?_, ?_, ?_, ?_⟩
  · intro task address awake closed
    rw [sets.status] at awake
    refine mapped task address (covered.mapped task address awake
      fun isOpen => closed (stillOpen task address isOpen)) ?_
    rintro rfl above
    by_contra below
    refine closed ⟨child, reached, ?_, linksNow, ?_, Nat.lt_of_not_le below⟩
    · rw [sets.parent]
      exact parentIs
    · rw [region]
      have start := (covered.fits child task progress parentIs linking).above
      exact Nat.le_trans start above
  · intro task address isOpen
    rcases openBefore task address isOpen with before | ⟨rfl, above, below⟩
    · exact opened task address (covered.opened task address before)
    · exact new address above below
  · intro other parentTask status otherParent part member
    rw [sets.status] at status
    rw [sets.parent] at otherParent
    obtain ⟨old, oldMember, below, above⟩ := inside other part member
    exact (covered.nested other parentTask status otherParent old
      oldMember).mono (types parentTask) below above
  · intro other parentTask found otherParent otherLinks
    rw [sets.parent] at otherParent
    by_cases same : other = child
    · subst same
      rw [linksNow] at otherLinks
      obtain rfl := Option.some.inj otherLinks
      rw [parentIs] at otherParent
      obtain rfl := Option.some.inj otherParent
      exact fits.congr (types parent)
    · rw [links other same] at otherLinks
      exact (covered.fits other parentTask found otherParent
        otherLinks).congr (types parentTask)
  · intro task
    rw [sets.work]
    split
    · have before := covered.alone child
      rw [working] at before
      exact before
    · exact covered.alone task

/-- A part of an entry is matched with the access of the child. -/
theorem unmaps (covered : Covered system) {child parent : TaskId}
    {progress reached : LinkProgress} {rest : List Work}
    (working :
      (system.task child).work = .replaceMatching progress :: rest)
    (parentIs : (system.task child).parent = some parent)
    (awake : (system.task parent).status.waits = false)
    (sets : SetsWork system child next (.replaceMatching reached :: rest))
    (region : reached.region = progress.region)
    (later : progress.remaining.start ≤ reached.remaining.start)
    (fits : reached.Fits (system.task parent))
    {entry : Piece BottomMapEntry}
    (member : entry ∈ (system.task parent).subaccessBottomMap.pieces)
    (starts : entry.interval.start ≤ progress.remaining.start)
    (ends : reached.remaining.start ≤ entry.interval.stop)
    (unmaps : Unmaps links system next parent
      ⟨progress.remaining.start, reached.remaining.start⟩)
    (closed : ∀ address, progress.remaining.start ≤ address →
      ¬ system.OpenAt parent address) :
    Covered next := by
  refine covered.opens working parentIs sets region later fits
    (fun task part => unmaps.inside) ?_ ?_ ?_ ?_ ?_ ?_
  · intro task address
    obtain ⟨middle, erodes, footprint⟩ := unmaps.footprint task address
    rw [footprint, ← erodes.accessType]
    split <;> rfl
  · intro task address
    obtain ⟨middle, erodes, footprint⟩ := unmaps.footprint task address
    have aligned := (covered.aligned task address).erodes erodes
    rw [footprint]
    split
    · exact aligned
    · exact aligned
  · intro task address
    obtain ⟨middle, erodes, footprint⟩ := unmaps.footprint task address
    rw [footprint]
    split
    · exact Footprint.Rooted.unmap middle
    · exact (covered.rooted task address).erodes erodes
  · intro task address mapped beyond
    obtain ⟨middle, erodes, footprint⟩ := unmaps.footprint task address
    rw [footprint, if_neg]
    · exact mapped.erodes erodes
    · rintro ⟨same, above, below⟩
      exact absurd (beyond same above) (Nat.not_le.mpr below)
  · intro task address opened
    obtain ⟨middle, erodes, footprint⟩ := unmaps.footprint task address
    rw [footprint]
    split
    · exact (opened.erodes erodes).unmap
    · exact opened.erodes erodes
  · intro address above below
    obtain ⟨middle, erodes, footprint⟩ := unmaps.footprint parent address
    rw [footprint, if_pos ⟨rfl, above, below⟩]
    refine (covered.mapped parent address awake (closed address above)).unmap
      (IntervalMap.lookup_of_mem _ member ⟨?_, ?_⟩) erodes
    · exact Nat.le_trans starts above
    · exact Nat.lt_of_lt_of_le below ends

end Covered

/-! ## One step of the matching -/

/-- Deciding about a ReductionInfo leaves the matching where it is. -/
theorem allocateForPrevious_progress (system : System) (task : TaskId)
    (progress : LinkProgress) (previous : DataAccess) :
    (allocateForPrevious system task progress previous).2.region =
        progress.region ∧
      (allocateForPrevious system task progress previous).2.remaining =
        progress.remaining := by
  unfold allocateForPrevious
  split
  · split
    · exact ⟨rfl, rfl⟩
    · split
      · exact ⟨rfl, rfl⟩
      · split <;> exact ⟨rfl, rfl⟩
  · exact ⟨rfl, rfl⟩

/-- The matching reaches `reached` and records the type of the access of the
parent there. -/
theorem LinkProgress.Fits.advance {progress other : LinkProgress}
    {parent : Task} (fits : progress.Fits parent) {reached : Nat}
    (region : other.region = progress.region)
    (remaining : other.remaining = ⟨reached, progress.remaining.stop⟩)
    (above : progress.remaining.start ≤ reached)
    (below : reached ≤ progress.remaining.stop)
    (inside : progress.remaining.start < progress.remaining.stop)
    (type : other.parentAccessType =
      (parent.footprint progress.remaining.start).accessType.getD .noAccess) :
    other.Fits parent := by
  have here : progress.remaining.start ∈ progress.region := by
    refine ⟨fits.above, ?_⟩
    rw [← fits.stop]
    exact inside
  refine ⟨?_, ?_, ?_, ?_, ?_⟩
  · rw [region]
    exact fits.positive
  · rw [region, remaining]
    exact Nat.le_trans fits.above above
  · rw [region, remaining, ← fits.stop]
    exact below
  · rw [region, remaining]
    exact fits.stop
  · rw [region]
    rcases fits.type with ⟨found, proper, same, -⟩ | ⟨outside, -⟩
    · refine Or.inl ⟨found, proper, same, fun _ => ?_⟩
      rw [type, same _ here]
      rfl
    · refine Or.inr ⟨outside, ?_⟩
      rw [type, outside _ here]
      rfl

namespace Covered

variable {links : TaskId → Prop} {system next : System}

/-- An entry whose objects are still there. -/
theorem matchEntry (covered : Covered system) (accounted : Accounted system)
    (enrolled : Enrolled system) (orderly : Orderly system)
    {child parent : TaskId} (differ : parent ≠ child)
    {progress : LinkProgress} {rest : List Work}
    (working :
      (system.task child).work = .replaceMatching progress :: rest)
    (parentIs : (system.task child).parent = some parent)
    {entry : Piece BottomMapEntry}
    (found : (system.task parent).subaccessBottomMap.firstIn
      progress.remaining.start progress.remaining.stop = some entry)
    (starts : entry.interval.start ≤ progress.remaining.start)
    (linked :
      ((system.task entry.value.link.task).objects
        entry.value.link.objectType.map).firstIn
          (entry.interval.inter progress.remaining).start
          (entry.interval.inter progress.remaining).stop ≠ none)
    (matched : Nanos6.matchEntry system child parent progress entry rest =
      some next)
    (clean : next.assertionFailed = false) : Covered next := by
  obtain ⟨member, meets, -⟩ := IntervalMap.firstIn_eq_some _ found
  have linking :
      Work.linkProgress (system.task child).work = some progress := by
    rw [working]
    rfl
  have awake : (system.task parent).status.waits = false := by
    rw [orderly.running_of_linkProgress enrolled parentIs linking]
    rfl
  have closed : ∀ address, progress.remaining.start ≤ address →
      ¬ system.OpenAt parent address :=
    fun _ above => orderly.closed_of_linkProgress enrolled parentIs linking
      above
  simp only [Interval.Meets, Interval.Nonempty, Interval.inter] at meets
  have here : (system.task parent).subaccessBottomMap.lookup
      progress.remaining.start = some entry.value :=
    IntervalMap.lookup_of_mem _ member ⟨starts, by omega⟩
  unfold Nanos6.matchEntry at matched
  dsimp only at matched
  split at matched
  · cases matched
  · rename_i free
    split at matched
    · rename_i gone
      exact absurd gone linked
    · rename_i piece pieceFound
      cases matched
      obtain ⟨pieceMember, pieceMeets, -⟩ :=
        IntervalMap.firstIn_eq_some _ pieceFound
      have previousDiffers : entry.value.link.task ≠ child := by
        intro same
        refine free ⟨?_, ?_⟩
        · rw [same]
          exact differ.symm
        · rw [same]
          simp [System.locked, Task.isLinking, working]
      have unmapped : Unmaps (fun _ => True) system _ _ _ :=
        unmaps_linkPrevious accounted differ previousDiffers pieceMember
          pieceMeets (fun _ => trivial) clean
      have sets := setsWork_linkPrevious system child parent progress
        entry.value.link.objectType.map entry.value.link.task piece
        (entry.interval.inter progress.remaining) entry.value.accessType rest
      obtain ⟨sameRegion, sameRemaining⟩ :=
        allocateForPrevious_progress system child progress piece.value
      have startIs : (entry.interval.inter progress.remaining).start =
          progress.remaining.start := by
        simp only [Interval.inter]
        omega
      simp only [Interval.Meets, Interval.Nonempty] at pieceMeets
      have reachedBelow :
          (piece.interval.inter
            (entry.interval.inter progress.remaining)).stop ≤
            min entry.interval.stop progress.remaining.stop := by
        simp only [Interval.inter]
        omega
      have reachedAbove : progress.remaining.start ≤
          (piece.interval.inter
            (entry.interval.inter progress.remaining)).stop := by
        simp only [Interval.inter] at pieceMeets ⊢
        omega
      refine covered.unmaps working parentIs awake sets ?_ ?_ ?_ member
        starts ?_ (unmapped.of_eq (congrArg (Interval.mk · _) startIs)) closed
      · exact sameRegion
      · exact reachedAbove
      · refine (covered.fits child parent progress parentIs linking).advance
          sameRegion ?_ reachedAbove (by omega) (by omega) ?_
        · simp only [LinkProgress.advance, sameRemaining]
        · exact (covered.mapped parent _ awake
            (closed _ (Nat.le_refl _))).entryType here
      · simp only [LinkProgress.advance]
        omega

end Covered

end Nanos6
