import Nanos6.Accounting.Setters

/-!
# Combination before use

The accesses of one task, while `handleDataAccessStatusChanges` acts on them in
the order of the source: the predecessors of the task are decreased first and
the previous reduction is combined afterwards.  The lock of the task serialises
the threads that change its accesses, but the end of
`registerTaskDataAccesses` decreases the predecessors without it.

The log of the calls of `combineRegion` is not in the source.
-/

namespace Nanos6.Combination

open Foundation

/-- The thread that registers the task, or one that updates it. -/
inductive Thread where
  | registering
  | other
  deriving DecidableEq, Repr

/-- What happens to an access of the task under its lock. -/
inductive Change where
  | setRegistered
  | satisfyLocally
  | allocateReductionInfo (info : ReductionInfo)
  | linkTo (next : DataAccessLink)
  | followParent (operation : BottomMapUpdateOperation)
  | applyUpdateOperation (operation : UpdateOperation)
  | setComplete
  deriving DecidableEq

def Change.setter : Change → Setter
  | .setRegistered => .andThen .setInBottomMap .setRegistered
  | .satisfyLocally => .satisfyLocally
  | .allocateReductionInfo info => .allocate info
  | .linkTo next => .linkTo next
  | .followParent operation => .followParent operation
  | .applyUpdateOperation operation => .applyUpdateOperation operation
  | .setComplete => .setComplete

/-- The changes that `linkTaskAccesses` makes to the accesses of the task that
it registers. -/
def Change.isLinking : Change → Bool
  | .setRegistered => true
  | .satisfyLocally => true
  | .allocateReductionInfo _ => true
  | _ => false

/-- The next thing that the handling of a change does. -/
inductive Point where
  | decreasePredecessors
  | combineRegion
  | propagate
  deriving DecidableEq, Repr

/-- The thread that holds the lock, with the access on which it acts: `initial`
as it was before the change and `access` as it is after. -/
structure Handling where
  thread : Thread
  region : DataAccessRegion
  initial : DataAccess
  access : DataAccess
  point : Point := .decreasePredecessors
  /-- The task is in the list of satisfied originators of the thread. -/
  isSatisfiedOriginator : Bool := false

namespace Handling

/-- The access no longer holds its task back. -/
def releases (handling : Handling) : Bool :=
  handling.initial.enforcesDependency != handling.access.enforcesDependency &&
    !handling.access.enforcesDependency

/-- The previous reduction has to be combined. -/
def combines (handling : Handling) : Bool :=
  handling.initial.closesPreviousReduction !=
    handling.access.closesPreviousReduction

end Handling

structure State where
  task : TaskId
  parent : TaskId → Option TaskId
  accesses : IntervalMap DataAccess
  counters : Counters
  /-- `registerTaskDataAccesses` has not returned yet. -/
  isRegistering : Bool
  handling : Option Handling := none
  /-- The lists of satisfied originators that hold the task, of threads that
  have released its lock. -/
  satisfiedOriginators : Nat := 0
  readyReports : List ReadyReport := []
  /-- The calls of `combineRegion` so far. -/
  combinations : List (ReductionInfo × DataAccessRegion) := []

inductive Action where
  /-- Take the lock, fragment the first access in the region and change it. -/
  | change (thread : Thread) (change : Change) (region : DataAccessRegion)
  | decreasePredecessors
  | combineRegion
  /-- Do the rest of the handling and release the lock. -/
  | propagate
  | processSatisfiedOriginators
  /-- The end of `registerTaskDataAccesses`. -/
  | returnFromRegistration
  deriving DecidableEq

/-- Other threads reach an access only after it has been registered, and the
source asserts that only a registered access is fragmented. -/
def mayChange (state : State) (thread : Thread) (change : Change)
    (region : DataAccessRegion) (piece : Piece DataAccess) : Bool :=
  (thread != .registering || state.isRegistering) &&
    (!change.isLinking || thread == .registering) &&
    (change == .setRegistered || piece.value.registered) &&
    (piece.sides region == 0 || piece.value.registered) &&
    change.setter.assertion piece.value

/-- Fragmenting and registering only add predecessors, so they are not
separated from the change. -/
def changeAccess (state : State) (thread : Thread) (change : Change)
    (region : DataAccessRegion) (piece : Piece DataAccess) : State :=
  let access := change.setter.apply piece.value
  { state with
    accesses := state.accesses.replace piece region (some access)
    counters :=
      handleRegistration (.of state.parent piece.value)
        (.of state.parent access) access
        ((setUpNewFragment state.parent piece.value
          piece.interval)^[piece.sides region] state.counters)
    handling :=
      some
        { thread := thread
          region := piece.interval.inter region
          initial := piece.value
          access := access } }

def decreasePredecessors (state : State) (handling : Handling) : State :=
  let decreased :=
    handleDependency (.of state.parent handling.initial)
      (.of state.parent handling.access) state.counters
  { state with
    counters := decreased.1
    handling :=
      some
        { handling with
          point := .combineRegion
          isSatisfiedOriginator := decreased.2 } }

def combineRegion (state : State) (handling : Handling) : State :=
  { state with
    combinations :=
      state.combinations ++
        if handling.combines then
          handling.access.previousReductionInfo.toList.map fun info =>
            (info, handling.region)
        else []
    handling := some { handling with point := .propagate } }

def propagate (state : State) (handling : Handling) : State :=
  let initial := DataAccessStatusEffects.of state.parent handling.initial
  let updated := DataAccessStatusEffects.of state.parent handling.access
  { state with
    accesses :=
      state.accesses.replace ⟨handling.region, handling.access⟩
        handling.region
        (handleDataAccessStatusChanges initial updated handling.access
          handling.region state.task state.counters).access
    counters :=
      (handleRemoval initial updated handling.access state.task
        state.counters).1
    handling := none
    satisfiedOriginators :=
      state.satisfiedOriginators +
        if handling.isSatisfiedOriginator then 1 else 0 }

def returnFromRegistration (state : State) : State :=
  let decreased := state.counters.decreasePredecessors 2
  { state with
    counters := decreased.1
    isRegistering := false
    readyReports :=
      state.readyReports ++
        if decreased.2 then [.registrationReturn] else [] }

/-- The registering thread is not inside of a handling, and it has registered
all the accesses. -/
def mayReturn (state : State) : Bool :=
  state.isRegistering &&
    (state.handling.all fun handling => handling.thread != .registering) &&
    state.accesses.pieces.all fun piece => piece.value.registered

def step (state : State) : Action → Option State
  | .change thread change region =>
      if state.handling.isSome then none
      else
        match state.accesses.firstIn region.start region.stop with
        | none => none
        | some piece =>
            if mayChange state thread change region piece then
              some (changeAccess state thread change region piece)
            else none
  | .decreasePredecessors =>
      match state.handling with
      | some handling =>
          if handling.point = .decreasePredecessors then
            some (decreasePredecessors state handling)
          else none
      | none => none
  | .combineRegion =>
      match state.handling with
      | some handling =>
          if handling.point = .combineRegion then
            some (combineRegion state handling)
          else none
      | none => none
  | .propagate =>
      match state.handling with
      | some handling =>
          if handling.point = .propagate then some (propagate state handling)
          else none
      | none => none
  | .processSatisfiedOriginators =>
      if 0 < state.satisfiedOriginators then
        some
          { state with
            satisfiedOriginators := state.satisfiedOriginators - 1
            readyReports := state.readyReports ++ [.satisfiedOriginator] }
      else none
  | .returnFromRegistration =>
      if mayReturn state then some (returnFromRegistration state) else none

/-- The start of `registerTaskDataAccesses`; without accesses it returns at
once. -/
def initialState (task : TaskId) (parent : TaskId → Option TaskId)
    (accesses : IntervalMap DataAccess) : State :=
  if accesses.pieces.isEmpty then
    { task := task
      parent := parent
      accesses := accesses
      counters := {}
      isRegistering := false
      readyReports := [.registrationReturn] }
  else
    { task := task
      parent := parent
      accesses := accesses
      counters := Counters.increasePredecessors 2 {}
      isRegistering := true }

/-! ## The property and the runs that have it -/

/-- The task may read or write the bytes of the access itself, outside of a
reduction. -/
def IsUse (access : DataAccess) : Prop :=
  access.weak = false ∧ access.type ≠ .reduction

instance (access : DataAccess) : Decidable (IsUse access) :=
  inferInstanceAs (Decidable (_ ∧ _))

/-- The byte has been combined for the reduction. -/
def State.HasCombined (state : State) (info : ReductionInfo) (address : Nat) :
    Prop :=
  ∃ region, (info, region) ∈ state.combinations ∧ address ∈ region

/-- When the task is reported as ready, each of its strong accesses that is not
a reduction knows which reduction came before it, and that reduction has been
combined over all bytes of the access. -/
def CombinedBeforeUse (state : State) : Prop :=
  state.readyReports ≠ [] →
    ∀ address access, state.accesses.lookup address = some access →
      IsUse access →
        access.receivedReductionInfo = true ∧
          ∀ info, access.previousReductionInfo = some info →
            state.HasCombined info address

/-- A reduction comes before the access, and the write satisfiability that the
combination waits for has not arrived. -/
def awaitsCombination (access : DataAccess) : Bool :=
  decide (IsUse access) && access.previousReductionInfo.isSome &&
    !access.writeSatisfied

def State.awaitsCombination (state : State) : Bool :=
  state.accesses.pieces.any fun piece =>
    Combination.awaitsCombination piece.value

/-- A thread that has changed an access of the task has not yet combined the
reduction before it. -/
def State.isCombining (state : State) : Bool :=
  state.handling.any fun handling =>
    decide (handling.point ≠ .propagate) && handling.combines &&
      decide (IsUse handling.access)

/-- The last predecessor must not go while an access awaits the combination;
`registerTaskDataAccesses` must not take the last two while a thread is about
to combine. -/
def permits (state : State) : Action → Bool
  | .decreasePredecessors =>
      !(state.handling.any Handling.releases &&
        state.counters.predecessorCount == 1 && state.awaitsCombination)
  | .returnFromRegistration =>
      !(state.counters.predecessorCount == 2 &&
        (state.awaitsCombination || state.isCombining))
  | _ => true

def Permitted (state : State) (action : Action) : Prop :=
  permits state action = true

instance (state : State) (action : Action) :
    Decidable (Permitted state action) :=
  inferInstanceAs (Decidable (permits state action = true))

/-! ## What a change does to one access -/

/-- An access as the changes leave it. -/
structure WellFormed (access : DataAccess) : Prop where
  objectType : access.objectType = .access
  own : access.type ≠ .reduction → access.reductionInfo = none
  previous : access.previousReductionInfo ≠ none →
    access.receivedReductionInfo = true
  incomplete : access.registered = false → access.complete = false

/-- What every change keeps. -/
structure Progress (before after : DataAccess) : Prop where
  objectType : after.objectType = before.objectType
  type : after.type = before.type
  weak : after.weak = before.weak
  write : before.writeSatisfied = true → after.writeSatisfied = true
  received :
    before.receivedReductionInfo = true → after.receivedReductionInfo = true
  previous : before.receivedReductionInfo = true →
    after.previousReductionInfo = before.previousReductionInfo
  cpuSet : before.receivedReductionCpuSet = true →
    after.receivedReductionCpuSet = true
  enforces :
    after.enforcesDependency = true → before.enforcesDependency = true
  removable : before.isRemovable = true → after.isRemovable = true
  anchored : before.IsAnchored → after.IsAnchored

theorem progress_of_adds {before after : DataAccess}
    (adds : Setter.AddsStatus before after) : Progress before after where
  objectType := adds.objectType
  type := adds.type
  weak := adds.weak
  write := adds.write
  received := adds.received
  previous := adds.previous
  cpuSet := adds.cpuSet
  enforces := adds.enforces
  removable := adds.removable
  anchored := adds.sound.anchored

theorem Change.adds {change : Change} (later : change ≠ .setRegistered) :
    Setter.Adds change.setter := by
  cases change with
  | setRegistered => exact absurd rfl later
  | satisfyLocally => exact Setter.adds_satisfyLocally
  | allocateReductionInfo info => exact Setter.adds_allocate info
  | linkTo next => exact Setter.adds_linkTo next
  | followParent operation => exact Setter.adds_followParent operation
  | applyUpdateOperation operation =>
      exact Setter.adds_applyUpdateOperation operation
  | setComplete => exact Setter.adds_setComplete

/-- The assertion of the first registration says that the access was not
registered before, so it was not complete. -/
theorem Change.progress {change : Change} {access : DataAccess}
    (wellFormed : WellFormed access)
    (asserted : change.setter.assertion access = true) :
    Progress access (change.setter.apply access) := by
  by_cases first : change = .setRegistered
  · subst first
    simp only [Change.setter, Setter.andThen, Setter.setInBottomMap,
      Setter.setRegistered, Bool.and_eq_true, Bool.not_eq_true'] at asserted
    have incomplete := wellFormed.incomplete asserted.2
    constructor <;>
      simp [Change.setter, Setter.andThen, Setter.setInBottomMap,
        Setter.setRegistered, DataAccess.isRemovable, incomplete,
        DataAccess.enforcesDependency, DataAccess.satisfied,
        DataAccess.receivedReductionStructures, DataAccess.hasReductionInfo,
        DataAccess.IsAnchored]
  · exact progress_of_adds (Change.adds first access asserted)

/-- A setter keeps a property of the accesses on which its assertion holds. -/
def Keeps (holds : DataAccess → Prop) (setter : Setter) : Prop :=
  ∀ access, setter.assertion access = true → holds access →
    holds (setter.apply access)

theorem Keeps.andThen {holds : DataAccess → Prop} {first second : Setter}
    (before : Keeps holds first) (after : Keeps holds second) :
    Keeps holds (first.andThen second) := by
  intro access asserted initially
  simp only [Setter.andThen, Bool.and_eq_true] at asserted
  exact after (first.apply access) asserted.2
    (before access asserted.1 initially)

theorem Keeps.onlyIf {holds : DataAccess → Prop} {setter : Setter}
    (keeps : Keeps holds setter) (condition : Bool) :
    Keeps holds (Setter.onlyIf condition setter) := by
  cases condition with
  | false => exact fun _ _ initially => initially
  | true => exact keeps

/-- A registered access. -/
structure Registered (access : DataAccess) : Prop
    extends WellFormed access where
  registered : access.registered = true

theorem keeps_receiveReductionInfo (info : Option ReductionInfo) :
    Keeps Registered (Setter.receiveReductionInfo info) := by
  intro access _ before
  cases info with
  | none => exact { before with previous := fun _ => rfl }
  | some found =>
      simp only [Setter.receiveReductionInfo, Setter.andThen,
        Setter.setPreviousReductionInfo, Setter.setReceivedReductionInfo]
      split
      · rename_i adopted
        simp only [Bool.and_eq_true, beq_iff_eq] at adopted
        exact
          { before with
            own := fun other => absurd adopted.1.2 other
            previous := fun _ => rfl }
      · exact { before with previous := fun _ => rfl }

theorem keeps_setReadSatisfied : Keeps Registered Setter.setReadSatisfied :=
  fun _ _ before => { before with }

theorem keeps_setWriteSatisfied : Keeps Registered Setter.setWriteSatisfied :=
  fun _ _ before => { before with }

theorem keeps_setConcurrentSatisfied :
    Keeps Registered Setter.setConcurrentSatisfied :=
  fun _ _ before => { before with }

theorem keeps_setTopmost : Keeps Registered Setter.setTopmost :=
  fun _ _ before => { before with }

theorem keeps_setTopLevel : Keeps Registered Setter.setTopLevel :=
  fun _ _ before => { before with }

theorem keeps_satisfyLocally : Keeps Registered Setter.satisfyLocally := by
  have received : Keeps Registered Setter.setReceivedReductionInfo :=
    fun _ _ before => { before with previous := fun _ => rfl }
  exact keeps_setReadSatisfied.andThen <|
    keeps_setWriteSatisfied.andThen <|
      keeps_setConcurrentSatisfied.andThen <|
        received.andThen <| keeps_setTopmost.andThen keeps_setTopLevel

theorem keeps_applyUpdateOperation (operation : UpdateOperation) :
    Keeps Registered (Setter.applyUpdateOperation operation) := by
  have cpuSet :
      Keeps Registered ((Setter.setPreviousReductionCpuSet
        operation.reductionCpuSet).andThen
          Setter.setReceivedReductionCpuSet) :=
    fun _ _ before => { before with }
  exact (keeps_setReadSatisfied.onlyIf _).andThen <|
    (keeps_setWriteSatisfied.onlyIf _).andThen <|
      (keeps_setConcurrentSatisfied.onlyIf _).andThen <|
        ((keeps_receiveReductionInfo _).onlyIf _).andThen <|
          (cpuSet.onlyIf _).andThen <|
            (keeps_setTopmost.onlyIf _).andThen (keeps_setTopLevel.onlyIf _)

theorem keeps_followParent (operation : BottomMapUpdateOperation) :
    Keeps Registered (Setter.followParent operation) := by
  have read : Keeps Registered Setter.unsetCanPropagateReadSatisfiability :=
    fun _ _ before => { before with }
  have concurrent :
      Keeps Registered Setter.unsetCanPropagateConcurrentSatisfiability :=
    fun _ _ before => { before with }
  have reduction : Keeps Registered Setter.unsetCanPropagateReductionInfo :=
    fun _ _ before => { before with }
  have next : Keeps Registered (Setter.setNext operation.next) :=
    fun _ _ before => { before with }
  exact (read.onlyIf _).andThen <|
    (concurrent.onlyIf _).andThen <| (reduction.onlyIf _).andThen next

/-- An access is registered by its first change and stays so. -/
theorem Change.registered {change : Change} {access : DataAccess}
    (wellFormed : WellFormed access)
    (reached : change = .setRegistered ∨ access.registered = true)
    (asserted : change.setter.assertion access = true) :
    Registered (change.setter.apply access) := by
  have formed : change ≠ .setRegistered → Registered access := by
    intro later
    exact { wellFormed with registered := reached.resolve_left later }
  cases change with
  | setRegistered =>
      exact
        { objectType := wellFormed.objectType
          own := wellFormed.own
          previous := wellFormed.previous
          incomplete := fun fresh => by cases fresh
          registered := rfl }
  | satisfyLocally =>
      exact keeps_satisfyLocally access asserted (formed (by simp))
  | allocateReductionInfo info =>
      have before := formed (by simp)
      simp only [Change.setter, Setter.allocate, Setter.andThen,
        Setter.setReductionInfo, Bool.and_eq_true, beq_iff_eq] at asserted
      exact
        { before with own := fun other => absurd asserted.1.2 other }
  | linkTo next => exact { formed (by simp) with }
  | followParent operation =>
      exact keeps_followParent operation access asserted (formed (by simp))
  | applyUpdateOperation operation =>
      exact keeps_applyUpdateOperation operation access asserted
        (formed (by simp))
  | setComplete =>
      have before := formed (by simp)
      refine { before with incomplete := ?_ }
      intro fresh
      exact absurd (before.registered.symm.trans fresh) (by simp)

/-! ## When the previous reduction is closed -/

/-- Only a reduction has a ReductionInfo of its own, so every other access
closes the previous reduction once it has all that it needs. -/
theorem closesPreviousReduction_eq {access : DataAccess}
    (wellFormed : WellFormed access) (other : access.type ≠ .reduction) :
    access.closesPreviousReduction =
      (access.writeSatisfied && access.receivedReductionInfo &&
        access.receivedReductionCpuSet &&
        access.previousReductionInfo.isSome) := by
  unfold DataAccess.closesPreviousReduction
  rw [wellFormed.objectType, wellFormed.own other]
  cases access.previousReductionInfo <;> simp

theorem Progress.closes {before after : DataAccess}
    (progress : Progress before after) (wellFormed : WellFormed before)
    (formed : WellFormed after) (other : before.type ≠ .reduction)
    (closes : before.closesPreviousReduction = true) :
    after.closesPreviousReduction = true ∧
      after.previousReductionInfo = before.previousReductionInfo := by
  have stillOther : after.type ≠ .reduction := by rw [progress.type]; exact other
  rw [closesPreviousReduction_eq wellFormed other] at closes
  simp only [Bool.and_eq_true] at closes
  obtain ⟨⟨⟨write, received⟩, cpuSet⟩, some⟩ := closes
  have same := progress.previous received
  refine ⟨?_, same⟩
  rw [closesPreviousReduction_eq formed stillOther, same]
  simp [progress.write write, progress.received received,
    progress.cpuSet cpuSet, some]

theorem satisfied_of_not_enforces {access : DataAccess}
    (wellFormed : WellFormed access) (use : IsUse access)
    (free : access.enforcesDependency = false) : access.satisfied = true := by
  simpa [DataAccess.enforcesDependency, use.1, use.2, wellFormed.objectType]
    using free

theorem received_of_satisfied {access : DataAccess}
    (satisfied : access.satisfied = true) :
    access.receivedReductionInfo = true := by
  unfold DataAccess.satisfied DataAccess.receivedReductionStructures at satisfied
  cases kind : access.type <;> simp_all

theorem cpuSet_of_satisfied {access : DataAccess}
    (other : access.type ≠ .reduction) (satisfied : access.satisfied = true)
    (previous : access.previousReductionInfo.isSome = true) :
    access.receivedReductionCpuSet = true := by
  unfold DataAccess.satisfied DataAccess.receivedReductionStructures at satisfied
  cases kind : access.type <;> simp_all [Option.isSome_iff_ne_none]

/-- An access that does not hold its task back and does not await the
combination closes the reduction before it, if there is one. -/
theorem closes_of_ready {access : DataAccess} (wellFormed : WellFormed access)
    (use : IsUse access) (free : access.enforcesDependency = false)
    (settled : awaitsCombination access = false) :
    access.closesPreviousReduction =
      access.previousReductionInfo.isSome := by
  have satisfied := satisfied_of_not_enforces wellFormed use free
  rw [closesPreviousReduction_eq wellFormed use.2,
    received_of_satisfied satisfied]
  cases previous : access.previousReductionInfo.isSome with
  | false => simp
  | true =>
      have write : access.writeSatisfied = true := by
        simpa [awaitsCombination, use, previous] using settled
      simp [write, cpuSet_of_satisfied use.2 satisfied previous]

theorem Progress.isUse {before after : DataAccess}
    (progress : Progress before after) : IsUse after ↔ IsUse before := by
  unfold IsUse
  rw [progress.type, progress.weak]

/-- Once the task can run, its accesses only lose what they await. -/
theorem Progress.awaits {before after : DataAccess}
    (progress : Progress before after) (wellFormed : WellFormed before)
    (free : before.enforcesDependency = false)
    (settled : awaitsCombination before = false) :
    awaitsCombination after = false := by
  by_cases use : IsUse before
  · have received :=
      received_of_satisfied (satisfied_of_not_enforces wellFormed use free)
    have stillUse := progress.isUse.mpr use
    simp only [awaitsCombination, use, stillUse, decide_true, Bool.true_and,
      progress.previous received, Bool.and_eq_false_iff,
      Bool.not_eq_false'] at settled ⊢
    exact settled.imp_right progress.write
  · have noUse : ¬ IsUse after := fun now => use (progress.isUse.mp now)
    simp [awaitsCombination, noUse]

/-- From then on nothing is left to combine. -/
theorem Progress.closes_iff {before after : DataAccess}
    (progress : Progress before after) (wellFormed : WellFormed before)
    (formed : WellFormed after) (use : IsUse before)
    (free : before.enforcesDependency = false)
    (settled : awaitsCombination before = false) :
    before.closesPreviousReduction = after.closesPreviousReduction := by
  have received :=
    received_of_satisfied (satisfied_of_not_enforces wellFormed use free)
  have stillFree : after.enforcesDependency = false := by
    cases enforces : after.enforcesDependency with
    | false => rfl
    | true => exact (progress.enforces enforces).symm.trans free
  rw [closes_of_ready wellFormed use free settled,
    closes_of_ready formed (progress.isUse.mpr use) stillFree
      (progress.awaits wellFormed free settled),
    progress.previous received]

/-- A removable access has a next one, so it stays in its map. -/
theorem hasNext_of_removable {access : DataAccess}
    (registered : Registered access) (anchored : access.IsAnchored)
    (removable : access.isRemovable = true) : access.hasNext = true := by
  rcases anchored registered.registered (Or.inl registered.objectType) with
    bottom | next
  · simp only [DataAccess.isRemovable, bottom, registered.objectType,
      Bool.not_true, Bool.false_or, Bool.and_eq_true] at removable
    simpa using removable.2
  · exact next

end Nanos6.Combination
