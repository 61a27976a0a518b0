import Nanos6.Accounting.Objects
import Nanos6.Dependencies.Step

/-!
# The changes of the dependency system are regular

The setters that the operations apply to objects only add to the status of an
object: under the assertions of the source none of them takes back that an
object is removable or makes it enforce a dependency again.
-/

namespace Nanos6

open Foundation

/-- A regular change that also keeps a registered object anchored. -/
structure SoundChange (before after : DataAccess) : Prop
    extends RegularChange before after where
  anchored : before.IsAnchored → after.IsAnchored

/-- An initial fragment is at the bottom, so it is not removable. -/
theorem isNewObject_initialFragment (access : DataAccess) :
    IsNewObject {} (initialFragment access) := by
  constructor <;>
    simp [initialFragment, createAccess, DataAccess.isRemovable,
      DataAccess.hasNext, DataAccess.enforcesDependency]

/-- A taskwait fragment is not topmost yet. -/
theorem isNewObject_taskwaitFragment (parent : TaskId → Option TaskId)
    (task : TaskId) {objectType : DataAccessObjectType}
    (notAccess : objectType ≠ .access) (type : DataAccessType) :
    IsNewObject (.of parent (createAccess task objectType type false none))
      (taskwaitFragment task objectType type) := by
  constructor <;>
    simp [taskwaitFragment, createAccess, DataAccess.isRemovable,
      DataAccess.enforcesDependency, DataAccessStatusEffects.of, notAccess]

namespace Setter

/-- More received satisfiability keeps an access satisfied. -/
theorem satisfied_mono {before after : DataAccess}
    (type : after.type = before.type)
    (read : before.readSatisfied = true → after.readSatisfied = true)
    (write : before.writeSatisfied = true → after.writeSatisfied = true)
    (concurrent :
      before.concurrentSatisfied = true → after.concurrentSatisfied = true)
    (received :
      before.receivedReductionInfo = true → after.receivedReductionInfo = true)
    (previous : before.receivedReductionInfo = true →
      after.previousReductionInfo = before.previousReductionInfo)
    (own : before.reductionInfo.isSome = true →
      after.reductionInfo = before.reductionInfo)
    (cpuSet : before.receivedReductionCpuSet = true →
      after.receivedReductionCpuSet = true)
    (satisfied : before.satisfied = true) :
    after.satisfied = true := by
  unfold DataAccess.satisfied DataAccess.receivedReductionStructures at *
  rw [type]
  cases kind : before.type <;>
    simp only [kind, Bool.and_eq_true, Bool.or_eq_true] at satisfied ⊢ <;>
    grind

/-- A change that only adds to the status of an object. -/
structure AddsStatus (before after : DataAccess) : Prop where
  objectType : after.objectType = before.objectType
  type : after.type = before.type
  weak : after.weak = before.weak
  registered : after.registered = before.registered
  read : before.readSatisfied = true → after.readSatisfied = true
  write : before.writeSatisfied = true → after.writeSatisfied = true
  concurrent :
    before.concurrentSatisfied = true → after.concurrentSatisfied = true
  received :
    before.receivedReductionInfo = true → after.receivedReductionInfo = true
  allocated :
    before.allocatedReductionInfo = true → after.allocatedReductionInfo = true
  previous : before.receivedReductionInfo = true →
    after.previousReductionInfo = before.previousReductionInfo
  own : before.reductionInfo.isSome = true →
    after.reductionInfo = before.reductionInfo
  cpuSet : before.receivedReductionCpuSet = true →
    after.receivedReductionCpuSet = true
  complete : before.complete = true → after.complete = true
  topmost : before.topmost = true → after.topmost = true
  bottom : before.inBottomMap = true →
    after.inBottomMap = true ∨ after.hasNext = true
  unmapped : before.inBottomMap = false → after.inBottomMap = false
  next : before.hasNext = true → after.hasNext = true

theorem AddsStatus.removable {before after : DataAccess}
    (adds : AddsStatus before after) (removable : before.isRemovable = true) :
    after.isRemovable = true := by
  have bottom := adds.bottom
  have unmapped := adds.unmapped
  have previous := adds.previous
  unfold DataAccess.isRemovable at *
  rw [adds.objectType]
  simp only [Bool.and_eq_true, Bool.or_eq_true, Bool.not_eq_true',
    beq_iff_eq] at removable ⊢
  grind [adds.read, adds.write, adds.received, adds.cpuSet, adds.complete,
    adds.topmost, adds.next]

theorem AddsStatus.enforces {before after : DataAccess}
    (adds : AddsStatus before after)
    (enforces : after.enforcesDependency = true) :
    before.enforcesDependency = true := by
  have satisfied :=
    satisfied_mono adds.type adds.read adds.write adds.concurrent
      adds.received adds.previous adds.own adds.cpuSet
  unfold DataAccess.enforcesDependency DataAccess.hasReductionInfo at *
  rw [adds.objectType, adds.type, adds.weak] at enforces
  simp only [Bool.and_eq_true, Bool.not_eq_true', Bool.and_eq_false_iff,
    Bool.or_eq_false_iff, beq_iff_eq] at enforces ⊢
  grind [adds.received, adds.allocated]

/-- Adding to the status of an object is a sound change. -/
theorem AddsStatus.sound {before after : DataAccess}
    (adds : AddsStatus before after) : SoundChange before after where
  objectType := adds.objectType
  registered := fun registered => by rw [adds.registered, registered]
  removable := fun _ => adds.removable
  enforces := fun _ => adds.enforces
  fresh := by
    intro before after
    rw [adds.registered, before] at after
    cases after
  anchored := by
    intro anchored registered kind
    rw [adds.registered] at registered
    rw [adds.objectType] at kind
    rcases anchored registered kind with bottom | next
    · exact adds.bottom bottom
    · exact Or.inr (adds.next next)

theorem AddsStatus.refl (access : DataAccess) : AddsStatus access access := by
  constructor <;> simp +contextual

theorem AddsStatus.trans {first second third : DataAccess}
    (before : AddsStatus first second) (after : AddsStatus second third) :
    AddsStatus first third where
  objectType := after.objectType.trans before.objectType
  type := after.type.trans before.type
  weak := after.weak.trans before.weak
  registered := after.registered.trans before.registered
  read := after.read ∘ before.read
  write := after.write ∘ before.write
  concurrent := after.concurrent ∘ before.concurrent
  received := after.received ∘ before.received
  allocated := after.allocated ∘ before.allocated
  previous := fun received =>
    (after.previous (before.received received)).trans
      (before.previous received)
  own := fun own => by
    have kept := before.own own
    rw [← kept] at own
    exact (after.own own).trans kept
  cpuSet := after.cpuSet ∘ before.cpuSet
  complete := after.complete ∘ before.complete
  topmost := after.topmost ∘ before.topmost
  bottom := fun bottom => by
    rcases before.bottom bottom with still | next
    · exact after.bottom still
    · exact Or.inr (after.next next)
  unmapped := after.unmapped ∘ before.unmapped
  next := after.next ∘ before.next

/-- A setter that only adds to the status of the objects on which its
assertion holds. -/
def Adds (setter : Setter) : Prop :=
  ∀ access, setter.assertion access = true →
    AddsStatus access (setter.apply access)

theorem Adds.andThen {first second : Setter} (before : Adds first)
    (after : Adds second) : Adds (first.andThen second) := by
  intro access asserted
  simp only [Setter.andThen, Bool.and_eq_true] at asserted
  exact (before access asserted.1).trans
    (after (first.apply access) asserted.2)

theorem Adds.onlyIf {setter : Setter} (adds : Adds setter)
    (condition : Bool) : Adds (Setter.onlyIf condition setter) := by
  cases condition with
  | false => exact fun access _ => AddsStatus.refl access
  | true => exact adds

theorem adds_setComplete : Adds setComplete := by
  intro access _
  constructor <;> simp +contextual [setComplete, DataAccess.hasNext]

theorem adds_linkTo (next : DataAccessLink) : Adds (linkTo next) := by
  intro access _
  constructor <;>
    simp +contextual [linkTo, Setter.andThen, setNext, unsetInBottomMap,
      DataAccess.hasNext]

theorem adds_setReadSatisfied : Adds setReadSatisfied := by
  intro access _
  constructor <;> simp +contextual [setReadSatisfied, DataAccess.hasNext]

theorem adds_setWriteSatisfied : Adds setWriteSatisfied := by
  intro access _
  constructor <;> simp +contextual [setWriteSatisfied, DataAccess.hasNext]

theorem adds_setConcurrentSatisfied : Adds setConcurrentSatisfied := by
  intro access _
  constructor <;> simp +contextual [setConcurrentSatisfied, DataAccess.hasNext]

theorem adds_setTopmost : Adds setTopmost := by
  intro access _
  constructor <;> simp +contextual [setTopmost, DataAccess.hasNext]

theorem adds_setTopLevel : Adds setTopLevel := by
  intro access _
  constructor <;> simp +contextual [setTopLevel, DataAccess.hasNext]

theorem adds_setReceivedReductionInfo : Adds setReceivedReductionInfo := by
  intro access _
  constructor <;>
    simp +contextual [setReceivedReductionInfo, DataAccess.hasNext]

theorem adds_satisfyLocally : Adds satisfyLocally :=
  adds_setReadSatisfied.andThen <|
    adds_setWriteSatisfied.andThen <|
      adds_setConcurrentSatisfied.andThen <|
        adds_setReceivedReductionInfo.andThen <|
          adds_setTopmost.andThen adds_setTopLevel

theorem adds_allocate (info : ReductionInfo) : Adds (allocate info) := by
  intro access asserted
  simp only [allocate, Setter.andThen, setReductionInfo, setAllocatedReductionInfo,
    Bool.and_eq_true, Option.isNone_iff_eq_none] at asserted
  constructor <;>
    simp +contextual [allocate, Setter.andThen, setReductionInfo,
      setAllocatedReductionInfo, DataAccess.hasNext, asserted.1.1]

theorem adds_setNext (next : DataAccessLink) : Adds (setNext next) := by
  intro access _
  constructor <;> simp +contextual [setNext, DataAccess.hasNext]

theorem adds_unsetCanPropagateReadSatisfiability :
    Adds unsetCanPropagateReadSatisfiability := by
  intro access _
  constructor <;>
    simp +contextual [unsetCanPropagateReadSatisfiability, DataAccess.hasNext]

theorem adds_unsetCanPropagateConcurrentSatisfiability :
    Adds unsetCanPropagateConcurrentSatisfiability := by
  intro access _
  constructor <;>
    simp +contextual [unsetCanPropagateConcurrentSatisfiability,
      DataAccess.hasNext]

theorem adds_unsetCanPropagateReductionInfo :
    Adds unsetCanPropagateReductionInfo := by
  intro access _
  constructor <;>
    simp +contextual [unsetCanPropagateReductionInfo, DataAccess.hasNext]

theorem adds_followParent (operation : BottomMapUpdateOperation) :
    Adds (followParent operation) :=
  (adds_unsetCanPropagateReadSatisfiability.onlyIf _).andThen <|
    (adds_unsetCanPropagateConcurrentSatisfiability.onlyIf _).andThen <|
      (adds_unsetCanPropagateReductionInfo.onlyIf _).andThen <|
        adds_setNext operation.next

theorem adds_receiveReductionCpuSet (cpus : CPUSet) :
    Adds ((setPreviousReductionCpuSet cpus).andThen
      setReceivedReductionCpuSet) := by
  intro access _
  constructor <;>
    simp +contextual [Setter.andThen, setPreviousReductionCpuSet,
      setReceivedReductionCpuSet, DataAccess.hasNext]

theorem apply_receiveReductionInfo (info : Option ReductionInfo)
    (access : DataAccess) :
    ∃ own,
      (receiveReductionInfo info).apply access =
          { access with
            previousReductionInfo := info
            reductionInfo := own
            receivedReductionInfo := true } ∧
        (access.reductionInfo.isSome = true → own = access.reductionInfo) := by
  cases info with
  | none => exact ⟨access.reductionInfo, rfl, fun _ => rfl⟩
  | some found =>
      simp only [receiveReductionInfo, Setter.andThen,
        setPreviousReductionInfo, setReceivedReductionInfo]
      split
      · rename_i adopted
        refine ⟨some found, rfl, ?_⟩
        intro already
        simp [Option.isNone_iff_eq_none] at adopted
        simp [adopted.1.1] at already
      · exact ⟨access.reductionInfo, rfl, fun _ => rfl⟩

/-- The previous ReductionInfo comes with the mark that it has been received,
so an object that has received one keeps it. -/
theorem adds_receiveReductionInfo (info : Option ReductionInfo) :
    Adds (receiveReductionInfo info) := by
  intro access asserted
  have fresh : access.receivedReductionInfo = false := by
    simp only [receiveReductionInfo, Setter.andThen,
      setPreviousReductionInfo, setReceivedReductionInfo, Bool.and_eq_true,
      Bool.not_eq_true'] at asserted
    have last := asserted.2.2
    split at last
    · split at last <;> exact last
    · exact last
  obtain ⟨own, applied, kept⟩ := apply_receiveReductionInfo info access
  rw [applied]
  constructor <;> simp +contextual [DataAccess.hasNext, fresh, kept]

theorem adds_applyUpdateOperation (operation : UpdateOperation) :
    Adds (applyUpdateOperation operation) :=
  (adds_setReadSatisfied.onlyIf _).andThen <|
    (adds_setWriteSatisfied.onlyIf _).andThen <|
      (adds_setConcurrentSatisfied.onlyIf _).andThen <|
        ((adds_receiveReductionInfo _).onlyIf _).andThen <|
          ((adds_receiveReductionCpuSet _).onlyIf _).andThen <|
            (adds_setTopmost.onlyIf _).andThen <|
              adds_setTopLevel.onlyIf _

/-- A setter that does not complete objects. -/
def KeepsComplete (setter : Setter) : Prop :=
  ∀ access, (setter.apply access).complete = access.complete

theorem KeepsComplete.andThen {first second : Setter}
    (before : KeepsComplete first) (after : KeepsComplete second) :
    KeepsComplete (first.andThen second) :=
  fun access => (after (first.apply access)).trans (before access)

theorem KeepsComplete.onlyIf {setter : Setter} (keeps : KeepsComplete setter)
    (condition : Bool) : KeepsComplete (Setter.onlyIf condition setter) := by
  cases condition with
  | false => exact fun _ => rfl
  | true => exact keeps

theorem keepsComplete_linkTo (next : DataAccessLink) :
    KeepsComplete (linkTo next) :=
  fun _ => rfl

theorem keepsComplete_satisfyLocally : KeepsComplete satisfyLocally := by
  intro access
  simp [satisfyLocally, Setter.andThen, setReadSatisfied, setWriteSatisfied,
    setConcurrentSatisfied, setReceivedReductionInfo, setTopmost, setTopLevel]

theorem keepsComplete_allocate (info : ReductionInfo) :
    KeepsComplete (allocate info) :=
  fun _ => rfl

theorem keepsComplete_followParent (operation : BottomMapUpdateOperation) :
    KeepsComplete (followParent operation) := by
  have read : KeepsComplete unsetCanPropagateReadSatisfiability :=
    fun _ => rfl
  have concurrent : KeepsComplete unsetCanPropagateConcurrentSatisfiability :=
    fun _ => rfl
  have reduction : KeepsComplete unsetCanPropagateReductionInfo :=
    fun _ => rfl
  have next : KeepsComplete (setNext operation.next) := fun _ => rfl
  exact (read.onlyIf _).andThen <|
    (concurrent.onlyIf _).andThen <| (reduction.onlyIf _).andThen next

theorem keepsComplete_receiveReductionInfo (info : Option ReductionInfo) :
    KeepsComplete (receiveReductionInfo info) := by
  intro access
  obtain ⟨own, applied, _⟩ := apply_receiveReductionInfo info access
  rw [applied]

theorem keepsComplete_applyUpdateOperation (operation : UpdateOperation) :
    KeepsComplete (applyUpdateOperation operation) := by
  have read : KeepsComplete setReadSatisfied := fun _ => rfl
  have write : KeepsComplete setWriteSatisfied := fun _ => rfl
  have concurrent : KeepsComplete setConcurrentSatisfied := fun _ => rfl
  have cpuSet :
      KeepsComplete ((setPreviousReductionCpuSet
        operation.reductionCpuSet).andThen setReceivedReductionCpuSet) :=
    fun _ => rfl
  have topmost : KeepsComplete setTopmost := fun _ => rfl
  have topLevel : KeepsComplete setTopLevel := fun _ => rfl
  exact (read.onlyIf _).andThen <|
    (write.onlyIf _).andThen <|
      (concurrent.onlyIf _).andThen <|
        ((keepsComplete_receiveReductionInfo _).onlyIf _).andThen <|
          (cpuSet.onlyIf _).andThen <|
            (topmost.onlyIf _).andThen (topLevel.onlyIf _)

/-- An access that becomes registered is at the bottom and not complete. -/
theorem sound_register {access : DataAccess}
    (anchored : access.IsAnchored)
    (incomplete : access.registered = false → access.complete = false) :
    SoundChange access ((setInBottomMap.andThen setRegistered).apply access) := by
  have removable : access.registered = true → access.isRemovable = true →
      ((setInBottomMap.andThen setRegistered).apply access).isRemovable =
        true := by
    intro registered removable
    have bottom := anchored registered
    simp only [Setter.andThen, setInBottomMap, setRegistered,
      DataAccess.isRemovable, DataAccess.hasNext, Bool.and_eq_true,
      Bool.or_eq_true, Bool.not_eq_true', beq_iff_eq] at *
    cases mapped : access.inBottomMap <;>
      cases kind : access.objectType <;>
      simp_all
  refine
    { objectType := rfl
      registered := fun _ => rfl
      removable := removable
      enforces := fun _ enforces => enforces
      fresh := ?_
      anchored := fun _ _ _ => Or.inl rfl }
  intro fresh _
  have notComplete := incomplete fresh
  refine ⟨?_, ?_, rfl⟩
  · simp [DataAccess.isRemovable, notComplete]
  · simp [DataAccess.isRemovable, Setter.andThen, setInBottomMap,
      setRegistered, notComplete]

end Setter

end Nanos6
