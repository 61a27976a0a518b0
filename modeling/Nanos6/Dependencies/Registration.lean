import Nanos6.Dependencies.System

/-!
# Registration of the accesses of a task

The first part builds the accesses of a task from its declarations, before any
other task can reach them.  The second part is `linkTaskAccesses`: each access
is matched against the bottom map of the parent, the objects found there are
linked to the new task, initial fragments are created over accesses of the
parent that had no subaccesses, and what the parent does not cover becomes
satisfied at once.
-/

namespace Nanos6

open Foundation

/-- One access declared by a task. -/
structure AccessDeclaration where
  type : DataAccessType
  weak : Bool
  region : DataAccessRegion
  symbolIndex : Option (Fin maxSymbols) := none
  reductionTypeAndOperatorIndex : Option Nat := none
  deriving DecidableEq

/-- A strong access, as an `in`, `out`, `inout` or `concurrent` clause declares
it. -/
def AccessDeclaration.strong (type : DataAccessType) (start stop : Nat) :
    AccessDeclaration :=
  { type := type, weak := false, region := ⟨start, stop⟩ }

/-- The set of CPUs is sized for reductions only. -/
def createAccess (originator : TaskId) (objectType : DataAccessObjectType)
    (type : DataAccessType) (weak : Bool)
    (reductionTypeAndOperatorIndex : Option Nat) : DataAccess :=
  { objectType := objectType
    type := type
    weak := weak
    originator := originator
    reductionTypeAndOperatorIndex := reductionTypeAndOperatorIndex
    reductionCpuSet := if type == .reduction then some ∅ else none }

/-- The upgrade of an access by a second declaration over the same region.
It fails where the source stops with a fatal error: when a reduction meets an
access that is not a reduction, or a reduction of another type or operator. -/
def upgradeAccess (access : DataAccess) (declaration : AccessDeclaration) :
    Option DataAccess :=
  let newWeak := access.weak && declaration.weak
  if declaration.type != access.type then
    if declaration.type == .reduction || access.type == .reduction then
      none
    else
      some { access with weak := newWeak, type := .readwrite }
  else if declaration.type == .reduction &&
      access.reductionTypeAndOperatorIndex !=
        declaration.reductionTypeAndOperatorIndex then
    none
  else
    some { access with weak := newWeak, type := declaration.type }

/-- Every access that the declaration meets can be upgraded. -/
def upgradable (accesses : IntervalMap DataAccess)
    (declaration : AccessDeclaration) : Bool :=
  accesses.pieces.all fun piece =>
    !decide (piece.interval.Meets declaration.region) ||
      (upgradeAccess piece.value declaration).isSome

/-- The symbols that a declaration gives to the accesses in its region: its own
and those of every access that it meets. -/
def declaredSymbols (accesses : IntervalMap DataAccess)
    (declaration : AccessDeclaration) : Finset (Fin maxSymbols) :=
  accesses.pieces.foldl
    (fun symbols piece =>
      if piece.interval.Meets declaration.region then
        symbols ∪ piece.value.symbols
      else symbols)
    (declaration.symbolIndex.elim ∅ fun symbol => {symbol})

def registerTaskDataAccess (task : TaskId) (accesses : IntervalMap DataAccess)
    (declaration : AccessDeclaration) : Option (IntervalMap DataAccess) :=
  if !decide declaration.region.Nonempty then
    some accesses
  else if upgradable accesses declaration then
    let symbols := declaredSymbols accesses declaration
    let fragmented := accesses.cut declaration.region
    let upgraded :=
      fragmented.mapMeeting declaration.region fun access =>
        let changed := (upgradeAccess access declaration).getD access
        { changed with symbols := changed.symbols ∪ symbols }
    let created :=
      { createAccess task .access declaration.type declaration.weak
          declaration.reductionTypeAndOperatorIndex with symbols := symbols }
    some <|
      (fragmented.gaps declaration.region).foldl
        (fun map gap => map.insert gap created) upgraded
  else
    none

/-- The accesses of a task, from all its declarations. -/
def registerDepinfo (task : TaskId) :
    List AccessDeclaration → Option (IntervalMap DataAccess) :=
  List.foldlM (registerTaskDataAccess task) IntervalMap.empty

/-- An access as it is before its task is registered. -/
def DataAccess.IsDeclared (task : TaskId) (access : DataAccess) : Prop :=
  ∃ type weak index symbols cpus,
    access =
      { objectType := .access
        type := type
        weak := weak
        originator := task
        reductionTypeAndOperatorIndex := index
        symbols := symbols
        reductionCpuSet := cpus }

theorem isDeclared_upgradeAccess {task : TaskId} {access : DataAccess}
    (declared : access.IsDeclared task) (declaration : AccessDeclaration) :
    ((upgradeAccess access declaration).getD access).IsDeclared task := by
  obtain ⟨type, weak, index, symbols, cpus, rfl⟩ := declared
  unfold upgradeAccess
  dsimp only
  split
  · split
    · exact ⟨type, weak, index, symbols, cpus, rfl⟩
    · exact ⟨.readwrite, _, index, symbols, cpus, rfl⟩
  · split
    · exact ⟨type, weak, index, symbols, cpus, rfl⟩
    · exact ⟨declaration.type, _, index, symbols, cpus, rfl⟩

theorem isDeclared_registerTaskDataAccess {task : TaskId}
    {accesses result : IntervalMap DataAccess}
    {declaration : AccessDeclaration}
    (declared : ∀ piece ∈ accesses.pieces, piece.value.IsDeclared task)
    (registered : registerTaskDataAccess task accesses declaration =
      some result) :
    ∀ piece ∈ result.pieces, piece.value.IsDeclared task := by
  have inserted : ∀ (gaps : List DataAccessRegion) (created : DataAccess)
      (map : IntervalMap DataAccess), created.IsDeclared task →
      (∀ piece ∈ map.pieces, piece.value.IsDeclared task) →
      ∀ piece ∈ (gaps.foldl (fun map gap => map.insert gap created)
        map).pieces, piece.value.IsDeclared task := by
    intro gaps created map isDeclared allDeclared
    induction gaps generalizing map with
    | nil => exact allDeclared
    | cons gap rest inductionHypothesis =>
        refine inductionHypothesis (map.insert gap created) ?_
        intro piece member
        rcases map.mem_insert member with rfl | old
        · exact isDeclared
        · exact allDeclared piece old
  unfold registerTaskDataAccess at registered
  split at registered
  · cases registered
    exact declared
  · split at registered
    · cases registered
      refine inserted _ _ _ ⟨_, _, _, _, _, rfl⟩ ?_
      intro piece member
      obtain ⟨cutPiece, cutMember, rfl⟩ :=
        (IntervalMap.mem_mapMeeting _).mp member
      obtain ⟨old, oldMember, value⟩ := accesses.value_cut cutMember
      have oldDeclared := declared old oldMember
      dsimp only
      rw [value]
      split
      · obtain ⟨type, weak, index, symbols, cpus, upgraded⟩ :=
          isDeclared_upgradeAccess oldDeclared declaration
        rw [upgraded]
        exact ⟨type, weak, index, _, cpus, rfl⟩
      · exact oldDeclared
    · cases registered

theorem isDeclared_registerDepinfo {task : TaskId}
    {declarations : List AccessDeclaration}
    {result : IntervalMap DataAccess}
    (registered : registerDepinfo task declarations = some result) :
    ∀ piece ∈ result.pieces, piece.value.IsDeclared task := by
  have folded : ∀ (declarations : List AccessDeclaration)
      (start : IntervalMap DataAccess),
      (∀ piece ∈ start.pieces, piece.value.IsDeclared task) →
      declarations.foldlM (registerTaskDataAccess task) start =
        some result →
      ∀ piece ∈ result.pieces, piece.value.IsDeclared task := by
    intro declarations
    induction declarations with
    | nil =>
        intro start declared done
        cases done
        exact declared
    | cons declaration rest inductionHypothesis =>
        intro start declared done
        obtain ⟨middle, first, others⟩ := Option.bind_eq_some_iff.mp done
        exact inductionHypothesis middle
          (isDeclared_registerTaskDataAccess declared first) others
  exact folded declarations IntervalMap.empty
    (fun _ member => absurd member List.not_mem_nil) registered

/-! ## Linking -/

namespace Setter

/-- Link the object that was at the bottom to the one that follows it. -/
def linkTo (next : DataAccessLink) : Setter :=
  (setNext next).andThen unsetInBottomMap

/-- What a region outside of the parent receives. -/
def satisfyLocally : Setter :=
  setReadSatisfied.andThen <|
    setWriteSatisfied.andThen <|
      setConcurrentSatisfied.andThen <|
        setReceivedReductionInfo.andThen <|
          setTopmost.andThen setTopLevel

def allocate (info : ReductionInfo) : Setter :=
  (setReductionInfo info).andThen setAllocatedReductionInfo

end Setter

/-- The status that the initial fragment of an access takes from it. -/
def initialFragment (access : DataAccess) : DataAccess :=
  { createAccess access.originator .fragment access.type access.weak
      access.reductionTypeAndOperatorIndex with
    readSatisfied := access.readSatisfied
    writeSatisfied := access.writeSatisfied
    concurrentSatisfied := access.concurrentSatisfied
    receivedReductionInfo := access.receivedReductionInfo
    previousReductionInfo :=
      if access.receivedReductionInfo then access.previousReductionInfo
      else none
    reductionInfo := access.reductionInfo
    receivedReductionCpuSet := access.receivedReductionCpuSet
    previousReductionCpuSet :=
      if access.receivedReductionCpuSet then access.previousReductionCpuSet
      else none
    reductionCpuSet := access.reductionCpuSet
    complete := access.complete
    inBottomMap := true
    topmost := true
    registered := true }

/-- The entries that the initial fragment leaves in the bottom map beside the
region that a subaccess covers. -/
def insertExcludedEntries (bottomMap : IntervalMap BottomMapEntry)
    (superaccess : DataAccessRegion) (subregion : DataAccessRegion)
    (entry : BottomMapEntry) : IntervalMap BottomMapEntry :=
  let withLeft :=
    if superaccess.start < subregion.start then
      bottomMap.insert ⟨superaccess.start, subregion.start⟩ entry
    else
      bottomMap
  if subregion.stop < superaccess.stop then
    withLeft.insert ⟨subregion.stop, superaccess.stop⟩ entry
  else
    withLeft

/-- Create the initial fragment of an access of `task`.  The source asserts
that no fragment is there yet and that the access has no subaccesses. -/
def createInitialFragment (system : System) (owner task : TaskId)
    (superaccess : Piece DataAccess) (subregion : DataAccessRegion) : System :=
  let withFragment :=
    system.createObject owner task .accessFragments superaccess.interval {}
      (initialFragment superaccess.value)
  let fits :=
    ((system.task task).objects .accessFragments).Fits superaccess.interval
  { withFragment.modifyTask task fun current =>
      { current with
        objects :=
          Function.update current.objects .accesses
            ((current.objects .accesses).replace superaccess
              superaccess.interval
              (some { superaccess.value with hasSubaccesses := true }))
        subaccessBottomMap :=
          insertExcludedEntries current.subaccessBottomMap superaccess.interval
            subregion ⟨⟨task, .fragment⟩, superaccess.value.type⟩ } with
    assertionFailed :=
      system.assertionFailed || !decide fits ||
        superaccess.value.hasSubaccesses }

theorem assertionFailed_createInitialFragment {system : System}
    {owner task : TaskId} {superaccess : Piece DataAccess}
    {subregion : DataAccessRegion}
    (clean : (createInitialFragment system owner task superaccess
      subregion).assertionFailed = false) :
    system.assertionFailed = false := by
  have asserted : (system.assertionFailed || _ || _) = false := clean
  simp only [Bool.or_eq_false_iff] at asserted
  exact asserted.1.1

theorem task_createInitialFragment (system : System) (owner task : TaskId)
    (superaccess : Piece DataAccess) (subregion : DataAccessRegion)
    (other : TaskId) :
    (createInitialFragment system owner task superaccess subregion).task
        other =
      if other = task then
        let current := system.task task
        let handled :=
          handleDataAccessStatusChanges {}
            (.of system.parent (initialFragment superaccess.value))
            (initialFragment superaccess.value) superaccess.interval task
            current.counters
        { current with
          objects :=
            Function.update
              (Function.update current.objects .accessFragments
                ((current.objects .accessFragments).insert
                  superaccess.interval (initialFragment superaccess.value)))
              .accesses
              ((current.objects .accesses).replace superaccess
                superaccess.interval
                (some { superaccess.value with hasSubaccesses := true }))
          subaccessBottomMap :=
            insertExcludedEntries current.subaccessBottomMap
              superaccess.interval subregion
              ⟨⟨task, .fragment⟩, superaccess.value.type⟩
          counters := handled.counters
          readyReports :=
            current.readyReports ++
              handled.dependencyData.satisfiedOriginators.map
                fun _ => .satisfiedOriginator }
      else system.task other := by
  unfold createInitialFragment
  dsimp only
  rw [System.task_modifyTask, System.task_createObject,
    System.task_createObject, if_pos rfl]
  by_cases same : other = task
  · rw [if_pos same, if_pos same]
    dsimp only
    rw [Function.update_of_ne (by simp)]
  · rw [if_neg same, if_neg same, if_neg same]

/-- Give the access that is being linked a ReductionInfo of its own. -/
def allocateReductionInfo (system : System) (task : TaskId)
    (progress : LinkProgress) : System :=
  let accesses := (system.task task).objects .accesses
  match accesses.firstIn progress.region.start progress.region.stop with
  | none => system
  | some piece =>
      let info : ReductionInfo :=
        ⟨system.nextReductionInfo,
          progress.reductionTypeAndOperatorIndex.getD 0⟩
      { system.changeObject task task .accesses piece piece.interval
          (.allocate info) with
        nextReductionInfo := system.nextReductionInfo + 1 }

/-- Decide, at an object that the access is going to follow, whether the access
needs a ReductionInfo of its own. -/
def allocateForPrevious (system : System) (task : TaskId)
    (progress : LinkProgress) (previous : DataAccess) :
    System × LinkProgress :=
  if progress.isReduction && !progress.hasAllocatedReductionInfo then
    if previous.reductionTypeAndOperatorIndex !=
        progress.reductionTypeAndOperatorIndex then
      (allocateReductionInfo system task progress,
        { progress with hasAllocatedReductionInfo := true })
    else if progress.previousReductionInfo.isNone then
      (system,
        { progress with previousReductionInfo := previous.reductionInfo })
    else if previous.reductionInfo != progress.previousReductionInfo then
      (allocateReductionInfo system task progress,
        { progress with hasAllocatedReductionInfo := true })
    else
      (system, progress)
  else
    (system, progress)

section Allocation

variable (system : System) {task other : TaskId} (progress : LinkProgress)
  (previous : DataAccess)

theorem task_allocateReductionInfo_of_ne (differ : other ≠ task) :
    (allocateReductionInfo system task progress).task other =
      system.task other := by
  unfold allocateReductionInfo
  dsimp only
  split
  · rfl
  · dsimp only
    rw [System.task_changeObject, if_neg differ]

theorem task_allocateForPrevious_of_ne (differ : other ≠ task) :
    (allocateForPrevious system task progress previous).1.task other =
      system.task other := by
  unfold allocateForPrevious
  split
  · split
    · exact task_allocateReductionInfo_of_ne system progress differ
    · split
      · rfl
      · split
        · exact task_allocateReductionInfo_of_ne system progress differ
        · rfl
  · rfl

theorem assertionFailed_allocateReductionInfo
    (clean : (allocateReductionInfo system task progress).assertionFailed =
      false) :
    system.assertionFailed = false := by
  unfold allocateReductionInfo at clean
  dsimp only at clean
  split at clean
  · exact clean
  · simp only [System.changeObject, Bool.or_eq_false_iff] at clean
    exact clean.1.1

theorem assertionFailed_allocateForPrevious
    (clean :
      (allocateForPrevious system task progress previous).1.assertionFailed =
        false) :
    system.assertionFailed = false := by
  unfold allocateForPrevious at clean
  split at clean
  · split at clean
    · exact assertionFailed_allocateReductionInfo system progress clean
    · split at clean
      · exact clean
      · split at clean
        · exact assertionFailed_allocateReductionInfo system progress clean
        · exact clean
  · exact clean

end Allocation

/-- Record that the access has been matched up to `reached`. -/
def LinkProgress.advance (progress : LinkProgress) (reached : Nat) :
    LinkProgress :=
  { progress with remaining := ⟨reached, progress.remaining.stop⟩ }

/-- Link one object of the bottom map to the access and take its part of the
entry out of the bottom map. -/
def linkPrevious (system : System) (task parent : TaskId)
    (progress : LinkProgress) (map : AccessMap) (previousTask : TaskId)
    (piece : Piece DataAccess) (region : DataAccessRegion)
    (parentAccessType : DataAccessType) (rest : List Work) : System :=
  let (allocated, decided) :=
    allocateForPrevious system task progress piece.value
  let linked :=
    allocated.changeObject task previousTask map piece region
      (.linkTo ⟨task, .access⟩)
  let reached := (piece.interval.inter region).stop
  let unmapped :=
    linked.modifyTask parent fun current =>
      { current with
        subaccessBottomMap :=
          current.subaccessBottomMap.eraseInterval ⟨region.start, reached⟩ }
  unmapped.setWork task
    (.replaceMatching
      { decided.advance reached with parentAccessType := parentAccessType } ::
      rest)

theorem assertionFailed_linkPrevious {system : System}
    {task parent : TaskId} {progress : LinkProgress} {map : AccessMap}
    {previousTask : TaskId} {piece : Piece DataAccess}
    {region : DataAccessRegion} {parentAccessType : DataAccessType}
    {rest : List Work}
    (clean : (linkPrevious system task parent progress map previousTask piece
      region parentAccessType rest).assertionFailed = false) :
    system.assertionFailed = false := by
  have asserted :
      ((allocateForPrevious system task progress
        piece.value).1.assertionFailed || _ || _) = false := clean
  simp only [Bool.or_eq_false_iff] at asserted
  exact assertionFailed_allocateForPrevious system progress piece.value
    asserted.1.1

/-- One object of an entry of the bottom map of the parent. -/
def matchEntry (system : System) (task parent : TaskId)
    (progress : LinkProgress) (entry : Piece BottomMapEntry)
    (rest : List Work) : Option System :=
  let region := entry.interval.inter progress.remaining
  let target := entry.value.link
  if target.task ≠ parent ∧ system.locked target.task then
    none
  else
    match ((system.task target.task).objects target.objectType.map).firstIn
        region.start region.stop with
    | none =>
        let unmapped :=
          system.modifyTask parent fun current =>
            { current with
              subaccessBottomMap :=
                current.subaccessBottomMap.eraseInterval region }
        some <| unmapped.setWork task
          (.replaceMatching (progress.advance region.stop) :: rest)
    | some piece =>
        some <| linkPrevious system task parent progress
          target.objectType.map target.task piece region
          entry.value.accessType rest

/-- One access of the parent that has no subaccesses yet. -/
def matchSuperaccess (system : System) (task parent : TaskId)
    (progress : LinkProgress) (superaccess : Piece DataAccess)
    (missing : DataAccessRegion) (rest : List Work) : System :=
  let created := createInitialFragment system task parent superaccess missing
  linkPrevious created task parent progress .accessFragments parent
    ⟨superaccess.interval, initialFragment superaccess.value⟩ missing
    superaccess.value.type rest

/-- A region that neither the bottom map nor the accesses of the parent
cover. -/
def matchUncovered (system : System) (task : TaskId)
    (progress : LinkProgress) (uncovered : DataAccessRegion)
    (rest : List Work) : System :=
  let allocates := progress.isReduction && !progress.hasAllocatedReductionInfo
  let allocated :=
    if allocates then allocateReductionInfo system task progress else system
  let decided :=
    { progress with
      hasAllocatedReductionInfo :=
        progress.hasAllocatedReductionInfo || allocates }
  match ((allocated.task task).objects .accesses).firstIn
      uncovered.start uncovered.stop with
  | none =>
      allocated.setWork task
        (.replaceMatching (decided.advance uncovered.stop) :: rest)
  | some piece =>
      let satisfied :=
        allocated.changeObject task task .accesses piece uncovered
          .satisfyLocally
      satisfied.setWork task
        (.replaceMatching
          (decided.advance (piece.interval.inter uncovered).stop) :: rest)

/-- One object of a region over which the bottom map has no entry. -/
def matchMissing (system : System) (task parent : TaskId)
    (progress : LinkProgress) (missing : DataAccessRegion)
    (rest : List Work) : System :=
  match ((system.task parent).objects .accesses).firstIn
      missing.start missing.stop with
  | none => matchUncovered system task progress missing rest
  | some superaccess =>
      if superaccess.interval.start ≤ missing.start then
        matchSuperaccess system task parent progress superaccess missing rest
      else
        matchUncovered system task progress
          ⟨missing.start, superaccess.interval.start⟩ rest

/-- One step of matching an access against the bottom map of the parent; at the
end the access itself enters the bottom map. -/
def replaceMatchingInBottomMapLinkAndPropagate (system : System)
    (task parent : TaskId) (progress : LinkProgress) (rest : List Work) :
    Option System :=
  let remaining := progress.remaining
  if remaining.stop ≤ remaining.start then
    let mapped :=
      system.modifyTask parent fun current =>
        { current with
          subaccessBottomMap :=
            current.subaccessBottomMap.insert progress.region
              ⟨⟨task, .access⟩, progress.parentAccessType⟩ }
    some (mapped.setWork task rest)
  else
    match (system.task parent).subaccessBottomMap.firstIn
        remaining.start remaining.stop with
    | none => some (matchMissing system task parent progress remaining rest)
    | some entry =>
        if entry.interval.start ≤ remaining.start then
          matchEntry system task parent progress entry rest
        else
          some <| matchMissing system task parent progress
            ⟨remaining.start, entry.interval.start⟩ rest

/-- One step of the loop over the accesses of the new task. -/
def linkTaskAccesses (system : System) (task : TaskId) (low : Nat)
    (rest : List Work) : System :=
  match ((system.task task).objects .accesses).nextFrom low with
  | none => system.setWork task rest
  | some piece =>
      let registered :=
        system.changeObject task task .accesses piece piece.interval
          (Setter.setInBottomMap.andThen .setRegistered)
      registered.setWork task
        (.replaceMatching
          { region := piece.interval
            remaining := piece.interval
            isReduction := piece.value.type == .reduction
            reductionTypeAndOperatorIndex :=
              piece.value.reductionTypeAndOperatorIndex } ::
          .linkTaskAccesses piece.interval.stop :: rest)

end Nanos6
