import Nanos6.Accounting.TaskwaitRuns

/-!
# The maps of a task, byte by byte

Accesses, fragments, taskwait fragments and entries of the bottom map are each
cut at boundaries of their own, so they can only be compared at single bytes.
The footprint of a task at a byte keeps what the comparison needs.  Nearly all
steps of the dependency system leave the footprints alone, whatever pieces they
cut the maps into.
-/

namespace Nanos6

open Foundation

structure Footprint where
  /-- The type of the access and whether it has subaccesses. -/
  access : Option (DataAccessType × Bool)
  hasFragment : Bool
  /-- There is a taskwait fragment or a sink. -/
  hasTaskwait : Bool
  entry : Option BottomMapEntry
  deriving DecidableEq

def Task.footprint (task : Task) (address : Nat) : Footprint where
  access :=
    ((task.objects .accesses).lookup address).map fun access =>
      (access.type, access.hasSubaccesses)
  hasFragment := ((task.objects .accessFragments).lookup address).isSome
  hasTaskwait := ((task.objects .taskwaitFragments).lookup address).isSome
  entry := task.subaccessBottomMap.lookup address

namespace Footprint

/-- The type of the access at the byte. -/
def accessType (footprint : Footprint) : Option DataAccessType :=
  footprint.access.map Prod.fst

/-- A fragment stands for every byte of an access with subaccesses, and for no
other. -/
def Aligned (footprint : Footprint) : Prop :=
  match footprint.access with
  | some (type, true) => footprint.hasFragment = true ∧ type ≠ .noAccess
  | _ => footprint.hasFragment = false

/-- The byte has an entry with the type of the access if the access has
subaccesses, and none otherwise; outside of the accesses an entry has no
type.  A taskwait fragment or a sink stands only there. -/
def Mapped (footprint : Footprint) : Prop :=
  match footprint.access with
  | some (type, true) =>
      footprint.entry.map (·.accessType) = some type ∧
        footprint.hasTaskwait = false
  | some (_, false) =>
      footprint.entry = none ∧ footprint.hasTaskwait = false
  | none => ∀ entry, footprint.entry = some entry → entry.accessType = .noAccess

/-- The byte has been matched with an access of a new child, whose entry is
still missing. -/
def Opened (footprint : Footprint) : Prop :=
  footprint.entry = none ∧
    match footprint.access with
    | some (_, hasSubaccesses) =>
        hasSubaccesses = true ∧ footprint.hasTaskwait = false
    | none => True

/-- An entry that leads to a taskwait fragment or a sink leads to one of `task`
itself, and to a taskwait fragment only where there is one. -/
def Rooted (task : TaskId) (footprint : Footprint) : Prop :=
  ∀ entry, footprint.entry = some entry →
    entry.link.objectType.map = .taskwaitFragments →
      entry.link.task = task ∧
        (entry.link.objectType = .taskwait → footprint.hasTaskwait = true)

/-- The entry of a byte with a taskwait fragment goes with the fragment. -/
def Erodes (before after : Footprint) : Prop :=
  after = before ∨
    (before.hasTaskwait = true ∧
      after = { before with hasTaskwait := false, entry := none })

theorem Erodes.refl (footprint : Footprint) : Erodes footprint footprint :=
  Or.inl rfl

theorem Erodes.trans {first second third : Footprint}
    (before : Erodes first second) (after : Erodes second third) :
    Erodes first third := by
  rcases before with rfl | ⟨taskwait, rfl⟩
  · exact after
  · rcases after with rfl | ⟨again, _⟩
    · exact Or.inr ⟨taskwait, rfl⟩
    · cases again

theorem Erodes.access {before after : Footprint}
    (erodes : Erodes before after) : after.access = before.access := by
  rcases erodes with rfl | ⟨_, rfl⟩ <;> rfl

theorem Erodes.accessType {before after : Footprint}
    (erodes : Erodes before after) : after.accessType = before.accessType :=
  congrArg (Option.map Prod.fst) erodes.access

theorem Aligned.erodes {before after : Footprint} (aligned : before.Aligned)
    (erodes : Erodes before after) : after.Aligned := by
  rcases erodes with rfl | ⟨_, rfl⟩ <;> exact aligned

/-- Taskwait fragments stand outside of the accesses here, where an entry may
be missing. -/
theorem Mapped.erodes {before after : Footprint} (mapped : before.Mapped)
    (erodes : Erodes before after) : after.Mapped := by
  rcases erodes with rfl | ⟨taskwait, rfl⟩
  · exact mapped
  · unfold Mapped at mapped ⊢
    split at mapped
    · rw [mapped.2] at taskwait
      cases taskwait
    · rw [mapped.2] at taskwait
      cases taskwait
    · rename_i outside
      simp [outside]

theorem Opened.erodes {before after : Footprint} (opened : before.Opened)
    (erodes : Erodes before after) : after.Opened := by
  rcases erodes with rfl | ⟨taskwait, rfl⟩
  · exact opened
  · obtain ⟨_, rest⟩ := opened
    refine ⟨rfl, ?_⟩
    split at rest
    · rw [rest.2] at taskwait
      cases taskwait
    · rename_i outside
      simp [outside]

theorem Rooted.erodes {task : TaskId} {before after : Footprint}
    (rooted : before.Rooted task) (erodes : Erodes before after) :
    after.Rooted task := by
  rcases erodes with rfl | ⟨_, rfl⟩
  · exact rooted
  · intro entry found
    cases found

/-- Without a taskwait fragment nothing is taken away. -/
theorem Erodes.eq_of_hasTaskwait {before after : Footprint}
    (erodes : Erodes before after) (absent : before.hasTaskwait = false) :
    after = before := by
  rcases erodes with rfl | ⟨taskwait, -⟩
  · rfl
  · rw [absent] at taskwait
    cases taskwait

theorem Rooted.unmap {task : TaskId} (footprint : Footprint) :
    Rooted task { footprint with entry := none } := by
  intro entry found
  cases found

theorem Opened.unmap {footprint : Footprint} (opened : footprint.Opened) :
    Opened { footprint with entry := none } :=
  ⟨rfl, opened.2⟩

/-- A byte whose entry is taken away. -/
theorem Mapped.unmap {before after : Footprint} (mapped : before.Mapped)
    {entry : BottomMapEntry} (found : before.entry = some entry)
    (erodes : Erodes before after) :
    Opened { after with entry := none } := by
  refine ⟨rfl, ?_⟩
  unfold Mapped at mapped
  split at mapped
  · rename_i type inside
    have same := erodes.eq_of_hasTaskwait mapped.2
    subst same
    simp [inside, mapped.2]
  · rw [mapped.1] at found
    cases found
  · rename_i outside
    have same := erodes.access
    rw [outside] at same
    simp [same]

/-- The type that an entry records. -/
theorem Mapped.entryType {footprint : Footprint}
    (mapped : footprint.Mapped) {entry : BottomMapEntry}
    (found : footprint.entry = some entry) :
    entry.accessType = footprint.accessType.getD .noAccess := by
  unfold Mapped at mapped
  unfold accessType
  split at mapped
  · rename_i type inside
    rw [found] at mapped
    rw [inside]
    exact Option.some.inj mapped.1
  · rw [mapped.1] at found
    cases found
  · rename_i outside
    rw [outside]
    exact mapped entry found

end Footprint

/-! ## Changes of objects -/

namespace Setter

/-- The type of an access and whether it has subaccesses do not depend on its
status. -/
def KeepsShape (setter : Setter) : Prop :=
  ∀ access, (setter.apply access).type = access.type ∧
    (setter.apply access).hasSubaccesses = access.hasSubaccesses

theorem KeepsShape.andThen {first second : Setter}
    (before : KeepsShape first) (after : KeepsShape second) :
    KeepsShape (first.andThen second) :=
  fun access =>
    ⟨((after (first.apply access)).1).trans (before access).1,
      ((after (first.apply access)).2).trans (before access).2⟩

theorem KeepsShape.onlyIf {setter : Setter} (keeps : KeepsShape setter)
    (condition : Bool) : KeepsShape (Setter.onlyIf condition setter) := by
  cases condition with
  | false => exact fun _ => ⟨rfl, rfl⟩
  | true => exact keeps

theorem keepsShape_linkTo (next : DataAccessLink) :
    KeepsShape (linkTo next) :=
  fun _ => ⟨rfl, rfl⟩

theorem keepsShape_setComplete : KeepsShape setComplete :=
  fun _ => ⟨rfl, rfl⟩

theorem keepsShape_register :
    KeepsShape (setInBottomMap.andThen setRegistered) :=
  fun _ => ⟨rfl, rfl⟩

theorem keepsShape_allocate (info : ReductionInfo) :
    KeepsShape (allocate info) :=
  fun _ => ⟨rfl, rfl⟩

theorem keepsShape_satisfyLocally : KeepsShape satisfyLocally := by
  have read : KeepsShape setReadSatisfied := fun _ => ⟨rfl, rfl⟩
  have write : KeepsShape setWriteSatisfied := fun _ => ⟨rfl, rfl⟩
  have concurrent : KeepsShape setConcurrentSatisfied := fun _ => ⟨rfl, rfl⟩
  have received : KeepsShape setReceivedReductionInfo := fun _ => ⟨rfl, rfl⟩
  have topmost : KeepsShape setTopmost := fun _ => ⟨rfl, rfl⟩
  have topLevel : KeepsShape setTopLevel := fun _ => ⟨rfl, rfl⟩
  exact read.andThen <| write.andThen <| concurrent.andThen <|
    received.andThen <| topmost.andThen topLevel

theorem keepsShape_followParent (operation : BottomMapUpdateOperation) :
    KeepsShape (followParent operation) := by
  have read : KeepsShape unsetCanPropagateReadSatisfiability :=
    fun _ => ⟨rfl, rfl⟩
  have concurrent : KeepsShape unsetCanPropagateConcurrentSatisfiability :=
    fun _ => ⟨rfl, rfl⟩
  have reduction : KeepsShape unsetCanPropagateReductionInfo :=
    fun _ => ⟨rfl, rfl⟩
  have next : KeepsShape (setNext operation.next) := fun _ => ⟨rfl, rfl⟩
  exact (read.onlyIf _).andThen <|
    (concurrent.onlyIf _).andThen <| (reduction.onlyIf _).andThen next

theorem keepsShape_receiveReductionInfo (info : Option ReductionInfo) :
    KeepsShape (receiveReductionInfo info) := by
  intro access
  obtain ⟨own, applied, _⟩ := apply_receiveReductionInfo info access
  rw [applied]
  exact ⟨rfl, rfl⟩

theorem keepsShape_applyUpdateOperation (operation : UpdateOperation) :
    KeepsShape (applyUpdateOperation operation) := by
  have read : KeepsShape setReadSatisfied := fun _ => ⟨rfl, rfl⟩
  have write : KeepsShape setWriteSatisfied := fun _ => ⟨rfl, rfl⟩
  have concurrent : KeepsShape setConcurrentSatisfied := fun _ => ⟨rfl, rfl⟩
  have cpuSet :
      KeepsShape ((setPreviousReductionCpuSet
        operation.reductionCpuSet).andThen setReceivedReductionCpuSet) :=
    fun _ => ⟨rfl, rfl⟩
  have topmost : KeepsShape setTopmost := fun _ => ⟨rfl, rfl⟩
  have topLevel : KeepsShape setTopLevel := fun _ => ⟨rfl, rfl⟩
  exact (read.onlyIf _).andThen <|
    (write.onlyIf _).andThen <|
      (concurrent.onlyIf _).andThen <|
        ((keepsShape_receiveReductionInfo _).onlyIf _).andThen <|
          (cpuSet.onlyIf _).andThen <|
            (topmost.onlyIf _).andThen (topLevel.onlyIf _)

end Setter

/-- A change deletes only taskwait fragments and sinks. -/
theorem access_handleChange_ne_none {parent : TaskId → Option TaskId}
    {task : TaskId} {piece : Piece DataAccess} {region : DataAccessRegion}
    {setter : Setter} {counters : Counters}
    (sound : SoundChange piece.value (setter.apply piece.value))
    (anchored : piece.value.IsAnchored)
    (kind : piece.value.objectType.map ≠ .taskwaitFragments) :
    (handleChange parent task piece region setter counters).access ≠
      none := by
  obtain ⟨cpus, outcome⟩ :=
    access_handleDataAccessStatusChanges (.of parent piece.value)
      (.of parent (setter.apply piece.value)) (setter.apply piece.value)
      (piece.interval.inter region) task
      ((setUpNewFragment parent piece.value
        piece.interval)^[piece.sides region] counters)
  unfold handleChange
  rw [outcome]
  split
  · rename_i gone
    simp only [DataAccessStatusEffects.of, Bool.and_eq_true, bne_iff_ne,
      Bool.not_eq_true'] at gone
    obtain ⟨⟨registered, differs⟩, unlinked⟩ := gone
    have removable := sound.removable_of_ne registered differs
    have notKept :=
      (sound.anchored anchored).objectType_of_unlinked registered removable
        unlinked
    rw [sound.objectType] at notKept
    rcases notKept with taskwait | sink
    · rw [taskwait] at kind
      exact absurd rfl kind
    · rw [sink] at kind
      exact absurd rfl kind
  · simp

/-- What a change of an object does not touch reads as before. -/
theorem map_lookup_changedObjects {β : Type}
    {objects : AccessMap → IntervalMap DataAccess} {map : AccessMap}
    {piece : Piece DataAccess} (member : piece ∈ (objects map).pieces)
    (region : DataAccessRegion) (handled : HandledChanges)
    (view : DataAccess → β)
    (cpuSet : ∀ access cpus,
      view { access with reductionCpuSet := cpus } = view access)
    {other : AccessMap}
    (kept : other = map → ∃ found, handled.access = some found ∧
      view found = view piece.value)
    (address : Nat) :
    ((changedObjects objects map piece region handled other).lookup
        address).map view =
      ((objects other).lookup address).map view := by
  have replaced :
      ((Function.update objects map
        ((objects map).replace piece region handled.access) other).lookup
          address).map view =
        ((objects other).lookup address).map view := by
    by_cases same : other = map
    · subst same
      obtain ⟨found, left, sameView⟩ := kept rfl
      rw [Function.update_self, left, IntervalMap.lookup_replace _ member]
      split
      · rename_i inside
        rw [IntervalMap.lookup_of_mem _ member inside.1, Option.map_some,
          Option.map_some, sameView]
      · rfl
    · rw [Function.update_of_ne same]
  unfold changedObjects
  split
  · by_cases accesses : other = .accesses
    · subst accesses
      rw [Function.update_self,
        IntervalMap.map_lookup_mapMeeting _ _ (fun access => cpuSet access _)]
      exact replaced
    · rw [Function.update_of_ne accesses]
      exact replaced
  · exact replaced

/-- A change of the status of an object can only delete a taskwait fragment or
a sink, together with its part of the bottom map. -/
theorem System.footprint_changeObject {system : System}
    {owner task : TaskId} {map : AccessMap} {piece : Piece DataAccess}
    (member : piece ∈ ((system.task task).objects map).pieces)
    {region : DataAccessRegion} {setter : Setter}
    (sound : SoundChange piece.value (setter.apply piece.value))
    (keeps : setter.KeepsShape) (anchored : piece.value.IsAnchored)
    (typed : piece.value.objectType.map = map) (other : TaskId)
    (address : Nat) :
    Footprint.Erodes ((system.task other).footprint address)
      (((system.changeObject owner task map piece region setter).task
        other).footprint address) := by
  rw [System.task_changeObject]
  split
  case isFalse => exact .refl _
  case isTrue same =>
  subst same
  dsimp only
  generalize outcome :
    handleChange system.parent other piece region setter
      (system.task other).counters = handled
  have shape : ∀ other' : AccessMap,
      (other' = map → handled.access.isSome = true) →
      ((changedObjects (system.task other).objects map piece region handled
          other').lookup address).map
            (fun access => (access.type, access.hasSubaccesses)) =
        (((system.task other).objects other').lookup address).map
          fun access => (access.type, access.hasSubaccesses) := by
    intro other' kept
    refine map_lookup_changedObjects member region handled _
      (fun _ _ => rfl) (fun equal => ?_) address
    obtain ⟨found, left⟩ := Option.isSome_iff_exists.mp (kept equal)
    refine ⟨found, left, ?_⟩
    rw [← outcome] at left
    obtain ⟨cpus, discounted, rfl⟩ := access_of_handleChange left
    rw [Prod.mk.injEq]
    exact keeps piece.value
  have present : ∀ other' : AccessMap,
      (other' = map → handled.access.isSome = true) →
      ((changedObjects (system.task other).objects map piece region handled
          other').lookup address).isSome =
        (((system.task other).objects other').lookup address).isSome := by
    intro other' kept
    have read := congrArg Option.isSome (shape other' kept)
    rwa [Option.isSome_map, Option.isSome_map] at read
  cases left : handled.access with
  | some found =>
      have kept : ∀ other' : AccessMap, other' = map →
          handled.access.isSome = true := by
        intro other' _
        rw [left]
        rfl
      refine Or.inl ?_
      simp only [Task.footprint, Footprint.mk.injEq, Option.isSome_some,
        if_true]
      exact ⟨shape .accesses (kept _), present .accessFragments (kept _),
        present .taskwaitFragments (kept _), trivial⟩
  | none =>
      have isTaskwait : map = .taskwaitFragments := by
        by_contra differ
        rw [← typed] at differ
        rw [← outcome] at left
        exact access_handleChange_ne_none sound anchored differ left
      subst isTaskwait
      have accesses := shape .accesses (fun equal => by cases equal)
      have fragments := present .accessFragments (fun equal => by cases equal)
      have taskwaits :
          (changedObjects (system.task other).objects .taskwaitFragments piece
            region handled .taskwaitFragments).lookup address =
          if address ∈ piece.interval ∧ address ∈ region then none
          else
            ((system.task other).objects .taskwaitFragments).lookup
              address := by
        rw [← IntervalMap.lookup_replace _ member]
        unfold changedObjects
        split <;> simp [left]
      by_cases inside : address ∈ piece.interval ∧ address ∈ region
      · refine Or.inr ⟨?_, ?_⟩
        · simp [Task.footprint,
            IntervalMap.lookup_of_mem _ member inside.1]
        · simp only [Task.footprint, Footprint.mk.injEq]
          refine ⟨accesses, fragments, ?_, ?_⟩
          · rw [taskwaits, if_pos inside]
            rfl
          · rw [if_neg (by simp), IntervalMap.lookup_eraseInterval,
              if_pos (Interval.mem_inter.mpr inside)]
      · refine Or.inl ?_
        simp only [Task.footprint, Footprint.mk.injEq]
        refine ⟨accesses, fragments, ?_, ?_⟩
        · rw [taskwaits, if_neg inside]
        · rw [if_neg (by simp), IntervalMap.lookup_eraseInterval,
            if_neg fun both => inside (Interval.mem_inter.mp both)]

end Nanos6
