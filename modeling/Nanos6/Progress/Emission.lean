import Nanos6.Accounting.Setters

/-!
# What a change of status emits

An operation is emitted only where some effect of an object has changed, and
the bottom map is updated only where an object that is complete and has
subaccesses gets its next object.  Neither is looked at here through the
assertions of the setters: the facts hold for every operation on every object,
also for one that sets a bit a second time.
-/

namespace Nanos6

open Foundation

/-! ## Changes of the effects -/

theorem UpdateOperation.eq_of_mem_nonempty
    {operation emitted : UpdateOperation}
    (member : emitted ∈ if operation.empty then [] else [operation]) :
    emitted = operation := by
  split at member
  · cases member
  · exact List.mem_singleton.mp member

section Emission

variable (effects initial updated : DataAccessStatusEffects)
  (access : DataAccess) (region : DataAccessRegion) (task : TaskId)
  (counters : Counters)

theorem delayedOperations_of_same_effects :
    (handleDataAccessStatusChanges effects effects access region task
      counters).dependencyData.delayedOperations = [] := by
  unfold handleDataAccessStatusChanges
  split
  · rfl
  · have toNext :
        (propagateToNext effects effects access region).2 = [] := by
      unfold propagateToNext
      split <;> simp [UpdateOperation.empty]
    have toFragments : ∀ linked : DataAccess,
        (propagateToFragments effects effects linked region task).2 = [] := by
      intro linked
      unfold propagateToFragments
      split <;> simp [UpdateOperation.empty]
    dsimp only
    rw [toNext, toFragments]
    rfl

/-- A ReductionInfo is passed on only when the effect on the next object or on
the fragments changes. -/
theorem setReductionInfo_of_same_effects
    (toNext : initial.propagatesReductionInfoToNext =
      updated.propagatesReductionInfoToNext)
    (toFragments : initial.propagatesReductionInfoToFragments =
      updated.propagatesReductionInfoToFragments)
    {operation : UpdateOperation}
    (emitted : operation ∈
      (handleDataAccessStatusChanges initial updated access region task
        counters).dependencyData.delayedOperations) :
    operation.setReductionInfo = false := by
  have fromNext : operation ∈
      (propagateToNext initial updated access region).2 →
      operation.setReductionInfo = false := by
    intro member
    unfold propagateToNext at member
    split at member
    · cases member
    · rw [UpdateOperation.eq_of_mem_nonempty member]
      simp [toNext]
  have fromFragments : ∀ linked : DataAccess, operation ∈
      (propagateToFragments initial updated linked region task).2 →
      operation.setReductionInfo = false := by
    intro linked member
    unfold propagateToFragments at member
    split at member
    · rw [UpdateOperation.eq_of_mem_nonempty member]
      simp [toFragments]
    · cases member
  unfold handleDataAccessStatusChanges at emitted
  split at emitted
  · cases emitted
  · rcases List.mem_append.mp emitted with next | fragments
    · exact fromNext next
    · exact fromFragments _ fragments

theorem bottomMapUpdate_of_same_effects
    (links : initial.linksBottomMapAccessesToNextAndInhibitsPropagation =
      updated.linksBottomMapAccessesToNextAndInhibitsPropagation) :
    (handleDataAccessStatusChanges initial updated access region task
      counters).bottomMapUpdate = none := by
  unfold handleDataAccessStatusChanges
  split
  · rfl
  · dsimp only
    unfold bottomMapUpdateOf
    split
    · rfl
    · simp [links]

end Emission

/-! ## Growing status -/

namespace DataAccess

/-- One while the object is not complete. -/
def incomplete (access : DataAccess) : Nat :=
  (!access.complete).toNat

/-- One while the object has no next one. -/
def unlinked (access : DataAccess) : Nat :=
  (!access.hasNext).toNat

/-- The number of bits that an update operation can still set. -/
def unsetFlags (access : DataAccess) : Nat :=
  (!access.readSatisfied).toNat + (!access.writeSatisfied).toNat +
    (!access.concurrentSatisfied).toNat +
    (!access.receivedReductionInfo).toNat +
    (!access.receivedReductionCpuSet).toNat + (!access.topmost).toNat +
    (!access.topLevel).toNat

/-- No bit is taken back. -/
structure Grows (before after : DataAccess) : Prop where
  incomplete : after.incomplete ≤ before.incomplete
  unlinked : after.unlinked ≤ before.unlinked
  unsetFlags : after.unsetFlags ≤ before.unsetFlags

end DataAccess

namespace Setter

theorem apply_andThen (first second : Setter) (access : DataAccess) :
    (first.andThen second).apply access = second.apply (first.apply access) :=
  rfl

theorem apply_onlyIf (condition : Bool) (setter : Setter)
    (access : DataAccess) :
    (onlyIf condition setter).apply access =
      if condition then setter.apply access else access := by
  cases condition <;> rfl

/-- What an update operation does to an object: it sets bits, and it replaces
what the object knows of reductions only where it says so. -/
theorem apply_applyUpdateOperation (operation : UpdateOperation)
    (access : DataAccess) :
    ∃ previous own cpus,
      (applyUpdateOperation operation).apply access =
          { access with
            readSatisfied :=
              access.readSatisfied || operation.makeReadSatisfied
            writeSatisfied :=
              access.writeSatisfied || operation.makeWriteSatisfied
            concurrentSatisfied :=
              access.concurrentSatisfied ||
                operation.makeConcurrentSatisfied
            receivedReductionInfo :=
              access.receivedReductionInfo || operation.setReductionInfo
            receivedReductionCpuSet :=
              access.receivedReductionCpuSet ||
                operation.reductionCpuSet.isSome
            topmost := access.topmost || operation.makeTopmost
            topLevel := access.topLevel || operation.makeTopLevel
            previousReductionInfo := previous
            reductionInfo := own
            previousReductionCpuSet := cpus } ∧
        (operation.setReductionInfo = false →
          previous = access.previousReductionInfo ∧
            own = access.reductionInfo) := by
  have read : ∀ current : DataAccess,
      (onlyIf operation.makeReadSatisfied setReadSatisfied).apply current =
        { current with
          readSatisfied :=
            current.readSatisfied || operation.makeReadSatisfied } := by
    intro current
    cases operation.makeReadSatisfied <;> simp [onlyIf, skip, setReadSatisfied]
  have write : ∀ current : DataAccess,
      (onlyIf operation.makeWriteSatisfied setWriteSatisfied).apply current =
        { current with
          writeSatisfied :=
            current.writeSatisfied || operation.makeWriteSatisfied } := by
    intro current
    cases operation.makeWriteSatisfied <;>
      simp [onlyIf, skip, setWriteSatisfied]
  have concurrent : ∀ current : DataAccess,
      (onlyIf operation.makeConcurrentSatisfied
          setConcurrentSatisfied).apply current =
        { current with
          concurrentSatisfied :=
            current.concurrentSatisfied ||
              operation.makeConcurrentSatisfied } := by
    intro current
    cases operation.makeConcurrentSatisfied <;>
      simp [onlyIf, skip, setConcurrentSatisfied]
  have topmost : ∀ current : DataAccess,
      (onlyIf operation.makeTopmost setTopmost).apply current =
        { current with
          topmost := current.topmost || operation.makeTopmost } := by
    intro current
    cases operation.makeTopmost <;> simp [onlyIf, skip, setTopmost]
  have topLevel : ∀ current : DataAccess,
      (onlyIf operation.makeTopLevel setTopLevel).apply current =
        { current with
          topLevel := current.topLevel || operation.makeTopLevel } := by
    intro current
    cases operation.makeTopLevel <;> simp [onlyIf, skip, setTopLevel]
  have info : ∀ current : DataAccess, ∃ previous own,
      (onlyIf operation.setReductionInfo
          (receiveReductionInfo operation.reductionInfo)).apply current =
        { current with
          receivedReductionInfo :=
            current.receivedReductionInfo || operation.setReductionInfo
          previousReductionInfo := previous
          reductionInfo := own } ∧
        (operation.setReductionInfo = false →
          previous = current.previousReductionInfo ∧
            own = current.reductionInfo) := by
    intro current
    cases operation.setReductionInfo with
    | false =>
        exact ⟨current.previousReductionInfo, current.reductionInfo,
          by simp [onlyIf, skip], fun _ => ⟨rfl, rfl⟩⟩
    | true =>
        obtain ⟨own, received, _⟩ :=
          apply_receiveReductionInfo operation.reductionInfo current
        exact ⟨operation.reductionInfo, own,
          by simp [onlyIf, received], fun absent => by cases absent⟩
  have cpuSet : ∀ current : DataAccess, ∃ cpus,
      (onlyIf operation.reductionCpuSet.isSome
          ((setPreviousReductionCpuSet operation.reductionCpuSet).andThen
            setReceivedReductionCpuSet)).apply current =
        { current with
          receivedReductionCpuSet :=
            current.receivedReductionCpuSet ||
              operation.reductionCpuSet.isSome
          previousReductionCpuSet := cpus } := by
    intro current
    cases operation.reductionCpuSet with
    | none =>
        exact ⟨current.previousReductionCpuSet, by simp [onlyIf, skip]⟩
    | some cpus =>
        exact ⟨some cpus, by
          simp [onlyIf, andThen, setPreviousReductionCpuSet,
            setReceivedReductionCpuSet]⟩
  unfold applyUpdateOperation
  simp only [apply_andThen, read, write, concurrent, topmost, topLevel]
  obtain ⟨previous, own, received, kept⟩ :=
    info
      { access with
        readSatisfied := access.readSatisfied || operation.makeReadSatisfied
        writeSatisfied :=
          access.writeSatisfied || operation.makeWriteSatisfied
        concurrentSatisfied :=
          access.concurrentSatisfied || operation.makeConcurrentSatisfied }
  rw [received]
  obtain ⟨cpus, collected⟩ :=
    cpuSet
      { access with
        readSatisfied := access.readSatisfied || operation.makeReadSatisfied
        writeSatisfied :=
          access.writeSatisfied || operation.makeWriteSatisfied
        concurrentSatisfied :=
          access.concurrentSatisfied || operation.makeConcurrentSatisfied
        receivedReductionInfo :=
          access.receivedReductionInfo || operation.setReductionInfo
        previousReductionInfo := previous
        reductionInfo := own }
  rw [collected]
  exact ⟨previous, own, cpus, rfl, kept⟩

/-- An update operation sets a bit that was not set, or it changes only what
the object knows of reductions. -/
theorem applyUpdateOperation_cases (operation : UpdateOperation)
    (access : DataAccess) :
    ((applyUpdateOperation operation).apply access).unsetFlags <
        access.unsetFlags ∨
      ∃ previous own cpus,
        (applyUpdateOperation operation).apply access =
            { access with
              previousReductionInfo := previous
              reductionInfo := own
              previousReductionCpuSet := cpus } ∧
          (operation.setReductionInfo = false →
            previous = access.previousReductionInfo ∧
              own = access.reductionInfo) := by
  obtain ⟨previous, own, cpus, applied, kept⟩ :=
    apply_applyUpdateOperation operation access
  have bit : ∀ old new : Bool,
      (!(old || new)).toNat < (!old).toNat ∨
        ((!(old || new)).toNat = (!old).toNat ∧ (old || new) = old) := by
    decide
  have read := bit access.readSatisfied operation.makeReadSatisfied
  have write := bit access.writeSatisfied operation.makeWriteSatisfied
  have concurrent :=
    bit access.concurrentSatisfied operation.makeConcurrentSatisfied
  have info := bit access.receivedReductionInfo operation.setReductionInfo
  have cpuSet :=
    bit access.receivedReductionCpuSet operation.reductionCpuSet.isSome
  have topmost := bit access.topmost operation.makeTopmost
  have topLevel := bit access.topLevel operation.makeTopLevel
  by_cases lowered :
      ((applyUpdateOperation operation).apply access).unsetFlags <
        access.unsetFlags
  · exact Or.inl lowered
  · refine Or.inr ⟨previous, own, cpus, ?_, kept⟩
    rw [applied] at lowered ⊢
    unfold DataAccess.unsetFlags at lowered
    dsimp only at lowered
    -- no summand has become smaller, so no bit has been set
    rw [(read.resolve_left (by omega)).2, (write.resolve_left (by omega)).2,
      (concurrent.resolve_left (by omega)).2,
      (info.resolve_left (by omega)).2, (cpuSet.resolve_left (by omega)).2,
      (topmost.resolve_left (by omega)).2,
      (topLevel.resolve_left (by omega)).2]

theorem grows_applyUpdateOperation (operation : UpdateOperation)
    (access : DataAccess) :
    access.Grows ((applyUpdateOperation operation).apply access) := by
  obtain ⟨previous, own, cpus, applied, _⟩ :=
    apply_applyUpdateOperation operation access
  refine ⟨?_, ?_, ?_⟩
  · rw [applied]
    exact Nat.le_refl _
  · rw [applied]
    exact Nat.le_refl _
  · rcases applyUpdateOperation_cases operation access with
      lowered | ⟨_, _, _, same, _⟩
    · exact lowered.le
    · rw [same]
      exact Nat.le_refl _

theorem apply_followParent (operation : BottomMapUpdateOperation)
    (access : DataAccess) :
    ∃ read concurrent info,
      (followParent operation).apply access =
        { access with
          readSatisfiabilityPropagationInhibited := read
          concurrentSatisfiabilityPropagationInhibited := concurrent
          reductionInfoPropagationInhibited := info
          next := some operation.next } := by
  unfold followParent
  rw [apply_andThen, apply_andThen, apply_andThen]
  simp only [apply_onlyIf]
  refine ⟨operation.inhibitReadSatisfiabilityPropagation ||
      access.readSatisfiabilityPropagationInhibited,
    operation.inhibitConcurrentSatisfiabilityPropagation ||
      access.concurrentSatisfiabilityPropagationInhibited,
    operation.inhibitReductionInfoPropagation ||
      access.reductionInfoPropagationInhibited, ?_⟩
  cases operation.inhibitReadSatisfiabilityPropagation <;>
    cases operation.inhibitConcurrentSatisfiabilityPropagation <;>
    cases operation.inhibitReductionInfoPropagation <;> rfl

theorem grows_followParent (operation : BottomMapUpdateOperation)
    (access : DataAccess) :
    access.Grows ((followParent operation).apply access) := by
  obtain ⟨read, concurrent, info, applied⟩ :=
    apply_followParent operation access
  rw [applied]
  exact ⟨Nat.le_refl _, Nat.zero_le _, Nat.le_refl _⟩

theorem grows_linkTo (next : DataAccessLink) (access : DataAccess) :
    access.Grows ((linkTo next).apply access) :=
  ⟨Nat.le_refl _, Nat.zero_le _, Nat.le_refl _⟩

theorem grows_setComplete (access : DataAccess) :
    access.Grows (setComplete.apply access) :=
  ⟨Nat.zero_le _, Nat.le_refl _, Nat.le_refl _⟩

end Setter

/-! ## Changes of objects -/

section Changes

variable (parent : TaskId → Option TaskId) (task : TaskId)
  (piece : Piece DataAccess) (region : DataAccessRegion)
  (counters : Counters)

/-- An update operation never makes the bottom map be updated: it neither
completes an object nor links it. -/
theorem bottomMapUpdate_applyUpdateOperation (operation : UpdateOperation) :
    (handleChange parent task piece region
      (.applyUpdateOperation operation) counters).bottomMapUpdate = none := by
  apply bottomMapUpdate_of_same_effects
  obtain ⟨previous, own, cpus, applied, _⟩ :=
    Setter.apply_applyUpdateOperation operation piece.value
  rw [applied]
  rfl

/-- An update operation that sets no bit and brings no ReductionInfo emits
nothing. -/
theorem delayedOperations_applyUpdateOperation
    {operation : UpdateOperation}
    (noInfo : operation.setReductionInfo = false)
    (same : ¬ ((Setter.applyUpdateOperation operation).apply
      piece.value).unsetFlags < piece.value.unsetFlags) :
    (handleChange parent task piece region
      (.applyUpdateOperation operation)
      counters).dependencyData.delayedOperations = [] := by
  obtain ⟨previous, own, cpus, applied, kept⟩ :=
    (Setter.applyUpdateOperation_cases operation
      piece.value).resolve_left same
  obtain ⟨samePrevious, sameOwn⟩ := kept noInfo
  unfold handleChange
  rw [applied, samePrevious, sameOwn]
  exact delayedOperations_of_same_effects _ _ _ _ _

/-- An update operation that sets no bit passes no ReductionInfo on. -/
theorem setReductionInfo_applyUpdateOperation
    {operation emitted : UpdateOperation}
    (same : ¬ ((Setter.applyUpdateOperation operation).apply
      piece.value).unsetFlags < piece.value.unsetFlags)
    (member : emitted ∈
      (handleChange parent task piece region
        (.applyUpdateOperation operation)
        counters).dependencyData.delayedOperations) :
    emitted.setReductionInfo = false := by
  obtain ⟨previous, own, cpus, applied, _⟩ :=
    (Setter.applyUpdateOperation_cases operation
      piece.value).resolve_left same
  refine setReductionInfo_of_same_effects _ _ _ _ _ _ ?_ ?_ member
  · rw [applied]
    rfl
  · rw [applied]
    rfl

/-- The objects at the bottom make a further bottom map be updated only when
they had no next object. -/
theorem bottomMapUpdate_followParent (operation : BottomMapUpdateOperation)
    (linked : piece.value.hasNext = true) :
    (handleChange parent task piece region (.followParent operation)
      counters).bottomMapUpdate = none := by
  apply bottomMapUpdate_of_same_effects
  obtain ⟨read, concurrent, info, applied⟩ :=
    Setter.apply_followParent operation piece.value
  rw [applied]
  simp [DataAccessStatusEffects.of, DataAccess.hasNext,
    DataAccess.linksBottomMapAccessesToNextAndInhibitsPropagation] at linked ⊢
  rw [linked]
  rfl

/-- To complete a complete object changes nothing. -/
theorem setComplete_of_complete (complete : piece.value.complete = true) :
    (handleChange parent task piece region .setComplete
        counters).dependencyData.delayedOperations = [] ∧
      (handleChange parent task piece region .setComplete
        counters).bottomMapUpdate = none := by
  have same : Setter.setComplete.apply piece.value = piece.value := by
    unfold Setter.setComplete
    rw [← complete]
  unfold handleChange
  rw [same]
  exact ⟨delayedOperations_of_same_effects _ _ _ _ _,
    bottomMapUpdate_of_same_effects _ _ _ _ _ _ rfl⟩

end Changes

end Nanos6
