import Nanos6.Progress.LoadChanges

/-!
# The load across the processing of operations

One step of a delayed operation, or of a bottom-map update, lowers the load.
An operation that reaches an object sets a bit of it, or it only brings a
ReductionInfo a second time and passes none on, or it emits nothing at all.  A
bottom-map update leads to a further one only by linking an object that had no
next one.
-/

namespace Nanos6

open Foundation

/-! ## Lists -/

section Lists

variable {α : Type} {items : List α} {index : Nat} {old : α}
  (found : items[index]? = some old) (weight : α → Nat)

include found

theorem sum_map_around :
    (items.map weight).sum =
      ((items.take index).map weight).sum + weight old +
        ((items.drop (index + 1)).map weight).sum := by
  obtain ⟨inside, rfl⟩ := List.getElem?_eq_some_iff.mp found
  conv_lhs =>
    rw [← List.take_append_drop index items, List.drop_eq_getElem_cons inside]
  simp only [List.map_append, List.map_cons, List.sum_append, List.sum_cons]
  omega

theorem sum_map_set (new : α) :
    ((items.set index new).map weight).sum + weight old =
      (items.map weight).sum + weight new := by
  obtain ⟨inside, _⟩ := List.getElem?_eq_some_iff.mp found
  rw [sum_map_around found weight, List.set_eq_take_append_cons_drop,
    if_pos inside]
  simp only [List.map_append, List.map_cons, List.sum_append, List.sum_cons]
  omega

theorem sum_map_eraseIdx :
    ((items.eraseIdx index).map weight).sum + weight old =
      (items.map weight).sum := by
  rw [sum_map_around found weight, List.eraseIdx_eq_take_drop_succ]
  simp only [List.map_append, List.sum_append]
  omega

end Lists

/-- What is left of a region behind an object that it meets. -/
theorem regionLoad_behind_lt {interval region : DataAccessRegion}
    (meets : interval.Meets region) :
    regionLoad ⟨(interval.inter region).stop, region.stop⟩ <
      regionLoad region := by
  unfold regionLoad
  unfold Interval.Meets Interval.Nonempty Interval.inter at meets
  unfold Interval.inter
  dsimp only at meets ⊢
  omega

namespace System

variable {tasks : Finset TaskId} {bound : Nat} {system next : System}
  {index : Nat} {owner : TaskId}

/-! ## Delayed operations -/

/-- The operations that an operation leaves after treating an object. -/
def emittedBy (system : System) (operation : UpdateOperation)
    (piece : Piece DataAccess) : List UpdateOperation :=
  (handleChange system.parent operation.target.task piece operation.region
    (.applyUpdateOperation operation)
    (system.task operation.target.task).counters
    ).dependencyData.delayedOperations

/-- A delayed operation treats one object and goes on behind it. -/
structure AppliesOperation (system next : System) (index : Nat)
    (owner : TaskId) (operation : UpdateOperation)
    (piece : Piece DataAccess) : Prop where
  found : system.delayedOperations[index]? = some (owner, operation)
  member : piece ∈ ((system.task operation.target.task).objects
    operation.target.objectType.map).pieces
  meets : piece.interval.Meets operation.region
  changed :
    next.task =
      (system.changeObject owner operation.target.task
        operation.target.objectType.map piece operation.region
        (.applyUpdateOperation operation)).task
  updates : next.bottomMapUpdates = system.bottomMapUpdates
  operations :
    next.delayedOperations =
      (system.delayedOperations ++
          (system.emittedBy operation piece).map
            fun emitted => (owner, emitted)).set index
        (owner,
          { operation with
            region :=
              ⟨(piece.interval.inter operation.region).stop,
                operation.region.stop⟩ })

/-- One step of the delayed operation at `index`: it ends, or it treats one
object. -/
theorem processUpdateOperation_cases
    (processed : processUpdateOperation system index = some next) :
    ∃ owner operation,
      system.delayedOperations[index]? = some (owner, operation) ∧
        ((next.task = system.task ∧
            next.bottomMapUpdates = system.bottomMapUpdates ∧
            next.delayedOperations =
              system.delayedOperations.eraseIdx index) ∨
          ∃ piece,
            AppliesOperation system next index owner operation piece) := by
  unfold processUpdateOperation at processed
  split at processed
  · cases processed
  · rename_i owner operation found
    refine ⟨owner, operation, found, ?_⟩
    dsimp only at processed
    split at processed
    · cases processed
    · split at processed
      · cases processed
        exact Or.inl ⟨rfl, rfl, rfl⟩
      · rename_i piece first
        cases processed
        obtain ⟨member, meets, _⟩ := IntervalMap.firstIn_eq_some _ first
        refine Or.inr ⟨piece, found, member, meets, rfl, ?_, rfl⟩
        unfold changeObject absorb
        dsimp only
        rw [bottomMapUpdate_applyUpdateOperation]
        rfl

namespace AppliesOperation

variable {operation : UpdateOperation} {piece : Piece DataAccess}
  (applies : AppliesOperation system next index owner operation piece)

include applies

theorem lightens (bound : Nat) (task : TaskId) :
    (system.task task).Lightens bound (next.task task) := by
  rw [applies.changed]
  exact lightens_changeObject applies.member bound owner task applies.meets
    (Setter.grows_applyUpdateOperation operation piece.value)

theorem follows (within : Within tasks bound system) :
    Follows tasks bound system next :=
  (system.follows_changeObject (within.mem_of_piece applies.member) owner _
    piece _ _).trans (.of_eq tasks bound applies.changed)

/-- The levels before the operations. -/
theorem load_le {level : Level} (early : level < .reductionInfo) :
    next.load tasks bound level ≤ system.load tasks bound level := by
  refine load_le_of_lightens (fun task => applies.lightens bound task)
    fun listed => ?_
  rcases listed with rfl | rfl | rfl
  · simp only [load, applies.updates, le_refl]
  · exact absurd early (lt_irrefl _)
  · exact absurd early (by decide)

/-- The weight of the operations after the step. -/
theorem sum_operations (weight : UpdateOperation → Nat) :
    (next.delayedOperations.map fun delayed => weight delayed.2).sum +
        weight operation =
      (system.delayedOperations.map fun delayed => weight delayed.2).sum +
        ((system.emittedBy operation piece).map weight).sum +
        weight
          { operation with
            region :=
              ⟨(piece.interval.inter operation.region).stop,
                operation.region.stop⟩ } := by
  obtain ⟨inside, _⟩ := List.getElem?_eq_some_iff.mp applies.found
  have exchanged :=
    sum_map_set applies.found (fun delayed => weight delayed.2)
      (owner,
        { operation with
          region :=
            ⟨(piece.interval.inter operation.region).stop,
              operation.region.stop⟩ })
  have same : ((fun delayed : TaskId × UpdateOperation => weight delayed.2) ∘
      fun emitted => (owner, emitted)) = weight := rfl
  rw [applies.operations, List.set_append_left _ _ inside]
  simp only [List.map_append, List.sum_append, List.map_map, same]
  dsimp only at exchanged
  omega

theorem lowersAt_satisfaction (within : Within tasks bound system)
    (sets : ((Setter.applyUpdateOperation operation).apply
      piece.value).unsetFlags < piece.value.unsetFlags) :
    LowersAt .satisfaction (system.load tasks bound)
      (next.load tasks bound) := by
  refine ⟨fun earlier isEarlier =>
    applies.load_le (isEarlier.trans (by decide)), ?_⟩
  refine Finset.sum_lt_sum
    (fun task _ => (applies.lightens bound task).satisfaction)
    ⟨_, within.mem_of_piece applies.member, ?_⟩
  rw [applies.changed]
  exact weighObjects_changeObject_lt applies.member owner
    isStatusWeight_unsetFlags applies.meets sets

/-- A ReductionInfo that is brought a second time is not passed on. -/
theorem lowersAt_reductionInfo (info : operation.setReductionInfo = true)
    (same : ¬ ((Setter.applyUpdateOperation operation).apply
      piece.value).unsetFlags < piece.value.unsetFlags) :
    LowersAt .reductionInfo (system.load tasks bound)
      (next.load tasks bound) := by
  refine ⟨fun earlier isEarlier => applies.load_le isEarlier, ?_⟩
  have exchanged := applies.sum_operations fun other =>
    if other.setReductionInfo then regionLoad other.region else 0
  have nothing :
      ((system.emittedBy operation piece).map fun other =>
        if other.setReductionInfo then regionLoad other.region
        else 0).sum = 0 := by
    refine List.sum_eq_zero fun amount isAmount => ?_
    obtain ⟨other, isEmitted, rfl⟩ := List.mem_map.mp isAmount
    rw [setReductionInfo_applyUpdateOperation _ _ _ _ _ same isEmitted]
    rfl
  have behind := regionLoad_behind_lt applies.meets
  simp only [nothing, info, if_true] at exchanged
  simp only [load]
  omega

/-- An operation that sets no bit and brings no ReductionInfo leaves less to
do. -/
theorem lowersAt_operations (noInfo : operation.setReductionInfo = false)
    (same : ¬ ((Setter.applyUpdateOperation operation).apply
      piece.value).unsetFlags < piece.value.unsetFlags) :
    LowersAt .operations (system.load tasks bound)
      (next.load tasks bound) := by
  have nothing : system.emittedBy operation piece = [] :=
    delayedOperations_applyUpdateOperation _ _ _ _ _ noInfo same
  refine ⟨fun earlier isEarlier => ?_, ?_⟩
  · refine load_le_of_lightens (fun task => applies.lightens bound task)
      fun listed => ?_
    rcases listed with rfl | rfl | rfl
    · simp only [load, applies.updates, le_refl]
    · have exchanged := applies.sum_operations fun other =>
        if other.setReductionInfo then regionLoad other.region else 0
      simp only [nothing, noInfo, List.map_nil, List.sum_nil,
        Bool.false_eq_true, if_false, Nat.add_zero] at exchanged
      simp only [load]
      omega
    · exact absurd isEarlier (lt_irrefl _)
  · have exchanged := applies.sum_operations fun other =>
      regionLoad other.region
    have behind := regionLoad_behind_lt applies.meets
    simp only [nothing, List.map_nil, List.sum_nil] at exchanged
    simp only [load]
    omega

end AppliesOperation

/-- Every step of a delayed operation lowers the load. -/
theorem lowersAt_processUpdateOperation (within : Within tasks bound system)
    (processed : processUpdateOperation system index = some next) :
    ∃ level,
      LowersAt level (system.load tasks bound) (next.load tasks bound) := by
  obtain ⟨owner, operation, found,
      ⟨sameTasks, updates, operations⟩ | ⟨piece, applies⟩⟩ :=
    processUpdateOperation_cases processed
  · -- no object is left for the operation
    refine ⟨.operations, fun earlier isEarlier => ?_, ?_⟩
    · refine load_le_of_lightens (fun task => ?_) fun listed => ?_
      · rw [sameTasks]
        exact Task.Lightens.refl bound _
      · rcases listed with rfl | rfl | rfl
        · simp only [load, updates, le_refl]
        · have erased := sum_map_eraseIdx found fun delayed =>
            if delayed.2.setReductionInfo then regionLoad delayed.2.region
            else 0
          simp only [load, operations]
          omega
        · exact absurd isEarlier (lt_irrefl _)
    · have erased := sum_map_eraseIdx found fun delayed =>
        regionLoad delayed.2.region
      have positive : 0 < regionLoad operation.region := Nat.succ_pos _
      simp only [load, operations]
      dsimp only at erased
      omega
  · by_cases sets :
        ((Setter.applyUpdateOperation operation).apply
          piece.value).unsetFlags < piece.value.unsetFlags
    · exact ⟨_, applies.lowersAt_satisfaction within sets⟩
    · cases info : operation.setReductionInfo with
      | true => exact ⟨_, applies.lowersAt_reductionInfo info sets⟩
      | false => exact ⟨_, applies.lowersAt_operations info sets⟩

theorem follows_processUpdateOperation (within : Within tasks bound system)
    (processed : processUpdateOperation system index = some next) :
    Follows tasks bound system next := by
  obtain ⟨owner, operation, _, ⟨same, _, _⟩ | ⟨piece, applies⟩⟩ :=
    processUpdateOperation_cases processed
  · exact .of_eq tasks bound same
  · exact applies.follows within

/-! ## Bottom-map updates -/

/-- The bottom-map updates after the one at `index` has gone on to
`reached`. -/
def continuedUpdates (system : System) (index : Nat) (owner task : TaskId)
    (operation : BottomMapUpdateOperation) (reached : Nat) :
    List (TaskId × TaskId × BottomMapUpdateOperation) :=
  system.bottomMapUpdates.take index ++
    (owner, task,
      { operation with region := ⟨reached, operation.region.stop⟩ }) ::
    system.bottomMapUpdates.drop (index + 1)

/-- A bottom-map update treats one object and goes on behind it. -/
structure AppliesUpdate (system next : System) (index : Nat)
    (owner task : TaskId) (operation : BottomMapUpdateOperation)
    (entry : Piece BottomMapEntry) (piece : Piece DataAccess) : Prop where
  inMap : entry ∈ (system.task task).subaccessBottomMap.pieces
  inRegion : entry.interval.Meets operation.region
  member : piece ∈ ((system.task entry.value.link.task).objects
    entry.value.link.objectType.map).pieces
  meets : piece.interval.Meets (entry.interval.inter operation.region)
  changed :
    next.task =
      (system.changeObject owner entry.value.link.task
        entry.value.link.objectType.map piece
        (entry.interval.inter operation.region)
        (.followParent operation)).task
  updates :
    next.bottomMapUpdates =
      ((handleChange system.parent entry.value.link.task piece
          (entry.interval.inter operation.region) (.followParent operation)
          (system.task entry.value.link.task).counters
          ).bottomMapUpdate.map fun update =>
            (owner, entry.value.link.task, update)).toList ++
        system.continuedUpdates index owner task operation
          (piece.interval.inter
            (entry.interval.inter operation.region)).stop

/-- One step of the bottom-map update at `index`: it ends, it finds no object
under an entry, or it treats one object. -/
theorem processBottomMapUpdate_cases
    (processed : processBottomMapUpdate system index = some next) :
    ∃ owner task operation,
      system.bottomMapUpdates[index]? = some (owner, task, operation) ∧
        ((next.task = system.task ∧
            next.bottomMapUpdates =
              system.bottomMapUpdates.take index ++
                system.bottomMapUpdates.drop (index + 1)) ∨
          (∃ entry, next.task = system.task ∧
            entry ∈ (system.task task).subaccessBottomMap.pieces ∧
            entry.interval.Meets operation.region ∧
            next.bottomMapUpdates =
              system.continuedUpdates index owner task operation
                (entry.interval.inter operation.region).stop) ∨
          ∃ entry piece,
            AppliesUpdate system next index owner task operation entry
              piece) := by
  unfold processBottomMapUpdate at processed
  split at processed
  · cases processed
  · rename_i owner task operation found
    refine ⟨owner, task, operation, found, ?_⟩
    dsimp only at processed
    split at processed
    · cases processed
    · split at processed
      · cases processed
        exact Or.inl ⟨rfl, rfl⟩
      · rename_i entry first
        obtain ⟨inMap, inRegion, _⟩ := IntervalMap.firstIn_eq_some _ first
        split at processed
        · cases processed
        · split at processed
          · cases processed
            exact Or.inr (Or.inl ⟨entry, rfl, inMap, inRegion, rfl⟩)
          · rename_i piece met
            cases processed
            obtain ⟨member, meets, _⟩ := IntervalMap.firstIn_eq_some _ met
            exact Or.inr (Or.inr ⟨entry, piece, inMap, inRegion, member,
              meets, rfl, rfl⟩)

/-- An update that goes on has less before it. -/
theorem sum_continuedUpdates_lt {task : TaskId}
    {operation : BottomMapUpdateOperation}
    (found : system.bottomMapUpdates[index]? = some (owner, task, operation))
    {reached : Nat}
    (shorter : regionLoad ⟨reached, operation.region.stop⟩ <
      regionLoad operation.region) :
    ((system.continuedUpdates index owner task operation reached).map
        fun update => regionLoad update.2.2.region).sum <
      (system.bottomMapUpdates.map fun update =>
        regionLoad update.2.2.region).sum := by
  have around :=
    sum_map_around found fun update => regionLoad update.2.2.region
  simp only [continuedUpdates, List.map_append, List.map_cons,
    List.sum_append, List.sum_cons]
  dsimp only at around
  omega

/-- What is left of the region of an update behind an object of an entry. -/
theorem regionLoad_behind_entry_lt {interval entry region : DataAccessRegion}
    (meets : interval.Meets (entry.inter region)) :
    regionLoad ⟨(interval.inter (entry.inter region)).stop, region.stop⟩ <
      regionLoad region := by
  unfold regionLoad
  unfold Interval.Meets Interval.Nonempty Interval.inter at meets
  unfold Interval.inter
  dsimp only at meets ⊢
  omega

namespace AppliesUpdate

variable {task : TaskId} {operation : BottomMapUpdateOperation}
  {entry : Piece BottomMapEntry} {piece : Piece DataAccess}
  (applies :
    AppliesUpdate system next index owner task operation entry piece)

include applies

theorem lightens (bound : Nat) (other : TaskId) :
    (system.task other).Lightens bound (next.task other) := by
  rw [applies.changed]
  exact lightens_changeObject applies.member bound owner other applies.meets
    (Setter.grows_followParent operation piece.value)

theorem follows (within : Within tasks bound system) :
    Follows tasks bound system next :=
  (system.follows_changeObject (within.mem_of_piece applies.member) owner _
    piece _ _).trans (.of_eq tasks bound applies.changed)

/-- An object that had no next one gets one. -/
theorem lowersAt_succession (within : Within tasks bound system)
    (unlinked : piece.value.hasNext = false) :
    LowersAt .succession (system.load tasks bound)
      (next.load tasks bound) := by
  refine lowersAt_of_lightens (applies.lightens bound) (by decide) ?_
  refine Finset.sum_lt_sum
    (fun other _ => (applies.lightens bound other).succession)
    ⟨_, within.mem_of_piece applies.member, ?_⟩
  rw [applies.changed]
  refine weighObjects_changeObject_lt applies.member owner
    isStatusWeight_unlinked applies.meets ?_
  obtain ⟨read, concurrent, info, applied⟩ :=
    Setter.apply_followParent operation piece.value
  have before : piece.value.unlinked = 1 := by
    simp [DataAccess.unlinked, unlinked]
  rw [applied, before]
  exact Nat.one_pos

/-- An object that had a next one leads to no further update. -/
theorem lowersAt_relinking
    (found : system.bottomMapUpdates[index]? = some (owner, task, operation))
    (linked : piece.value.hasNext = true) :
    LowersAt .relinking (system.load tasks bound)
      (next.load tasks bound) := by
  refine lowersAt_of_lightens (applies.lightens bound) (le_refl _) ?_
  have updates := applies.updates
  rw [bottomMapUpdate_followParent _ _ _ _ _ _ linked] at updates
  simp only [load, updates, Option.map_none, Option.toList_none,
    List.nil_append]
  exact sum_continuedUpdates_lt found
    (regionLoad_behind_entry_lt applies.meets)

end AppliesUpdate

/-- Every step of a bottom-map update lowers the load. -/
theorem lowersAt_processBottomMapUpdate (within : Within tasks bound system)
    (processed : processBottomMapUpdate system index = some next) :
    ∃ level,
      LowersAt level (system.load tasks bound) (next.load tasks bound) := by
  obtain ⟨owner, task, operation, found,
      ⟨sameTasks, updates⟩ | ⟨entry, sameTasks, _, inRegion, updates⟩ |
        ⟨entry, piece, applies⟩⟩ :=
    processBottomMapUpdate_cases processed
  · -- no entry is left for the update
    refine ⟨.relinking, lowersAt_of_lightens (fun other => ?_) (le_refl _) ?_⟩
    · rw [sameTasks]
      exact Task.Lightens.refl bound _
    · have around :=
        sum_map_around found fun update => regionLoad update.2.2.region
      have positive : 0 < regionLoad operation.region := Nat.succ_pos _
      simp only [load, updates, List.map_append, List.sum_append]
      dsimp only at around
      omega
  · refine ⟨.relinking, lowersAt_of_lightens (fun other => ?_) (le_refl _) ?_⟩
    · rw [sameTasks]
      exact Task.Lightens.refl bound _
    · simp only [load, updates]
      exact sum_continuedUpdates_lt found (regionLoad_behind_lt inRegion)
  · cases linked : piece.value.hasNext with
    | true => exact ⟨_, applies.lowersAt_relinking found linked⟩
    | false => exact ⟨_, applies.lowersAt_succession within linked⟩

theorem follows_processBottomMapUpdate (within : Within tasks bound system)
    (processed : processBottomMapUpdate system index = some next) :
    Follows tasks bound system next := by
  obtain ⟨owner, updated, operation, _,
      ⟨same, _⟩ | ⟨entry, same, _⟩ | ⟨entry, piece, applies⟩⟩ :=
    processBottomMapUpdate_cases processed
  · exact .of_eq tasks bound same
  · exact .of_eq tasks bound same
  · exact applies.follows within

end System

end Nanos6
