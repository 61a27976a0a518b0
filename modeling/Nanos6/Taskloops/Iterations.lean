import Nanos6.Foundation.LabelledRun
import Nanos6.Foundation.Pending
import Nanos6.Taskloops.Partitions

/-!
# Collaborators take the iterations

Every partition of a taskloop has a counter from which the collaborators take
chunks with a `fetch_add`, which also counts the attempts that come too late.  A
collaborator goes through the partitions in an order of its own; it leaves when
it has been through all of them, or when the number of partitions that have
chunks left is zero.  That number is decremented in a step of its own, by the
collaborator that takes the last chunk of a partition.
-/

namespace Nanos6.Taskloop

open Foundation

/-- `TaskloopPartition`. -/
structure Partition where
  upperBound : Nat
  nextLowerBound : Nat
  deriving DecidableEq, Repr

/-- The iterations that a collaborator obtains at a time. -/
structure Chunk where
  lowerBound : Nat
  upperBound : Nat
  deriving DecidableEq, Repr

def Chunk.Contains (chunk : Chunk) (iteration : Nat) : Prop :=
  chunk.lowerBound ≤ iteration ∧ iteration < chunk.upperBound

instance (chunk : Chunk) (iteration : Nat) :
    Decidable (chunk.Contains iteration) :=
  inferInstanceAs (Decidable (_ ∧ _))

/-- A collaborator, in `run`; with the partitions that it has not left behind,
the current one first. -/
inductive Collaborator where
  /-- Before the `fetch_add`. -/
  | requests (path : List Nat)
  /-- It has taken the last chunk of a partition, and is going to say so. -/
  | countsPartition (path : List Nat)
  | executes (path : List Nat)
  /-- It has come too late for a chunk of the partition it has left, and tests
  whether it goes on. -/
  | tests (path : List Nat)
  | returned
  deriving DecidableEq, Repr

/-- A taskloop source and its collaborators. -/
structure Source where
  bounds : Bounds
  partitions : List Partition
  remainingPartitions : Nat
  collaborators : List Collaborator := []
  /-- Not in the source: the chunks obtained so far. -/
  obtained : List Chunk := []

/-- `TaskloopInfo::initialize`. -/
def initialized (partitionCount : Nat) (given : Bounds) : Source :=
  let bounds := given.setChunksize partitionCount
  let parts := splitIterations partitionCount bounds
  { bounds := bounds
    partitions := parts.map fun part =>
      { upperBound := part.upperBound, nextLowerBound := part.lowerBound }
    remainingPartitions :=
      (parts.filter fun part => 0 < part.getIterationCount).length }

namespace Source

def hasPendingIterations (source : Source) : Bool :=
  0 < source.remainingPartitions

def steppedChunksize (source : Source) : Nat :=
  sizeMul source.bounds.step source.bounds.chunksize

/-- The `fetch_add` on the counter of a partition. -/
def fetchAdd (source : Source) (partition : Nat) : Source :=
  { source with
    partitions := source.partitions.modify partition fun current =>
      { current with
        nextLowerBound :=
          sizeAdd current.nextLowerBound source.steppedChunksize } }

/-- The chunk that starts at the old value of the counter. -/
def chunkAt (source : Source) (partition : Partition) : Chunk where
  lowerBound := partition.nextLowerBound
  upperBound :=
    min (sizeAdd partition.nextLowerBound source.steppedChunksize)
      partition.upperBound

def setCollaborator (source : Source) (index : Nat)
    (collaborator : Collaborator) : Source :=
  { source with
    collaborators := replaceAt source.collaborators index [collaborator] }

/-- `getPendingIterationsFromPartition`, up to the decrement. -/
def getPendingIterations (source : Source) (index : Nat)
    (partition : Nat) (rest : List Nat) (current : Partition) : Source :=
  let taken := source.fetchAdd partition
  let chunk := source.chunkAt current
  if current.nextLowerBound < current.upperBound then
    { taken.setCollaborator index
        (if current.upperBound ≤ chunk.upperBound then
          .countsPartition (partition :: rest)
        else .executes (partition :: rest)) with
      obtained := chunk :: source.obtained }
  else taken.setCollaborator index (.tests rest)

def discountPartition (source : Source) : Source :=
  { source with
    remainingPartitions := sizeSub source.remainingPartitions 1 }

/-- One step of a collaborator. -/
def perform (source : Source) (index : Nat) : Collaborator → Option Source
  | .requests [] => none
  | .requests (partition :: rest) =>
      source.partitions[partition]?.map
        (source.getPendingIterations index partition rest)
  | .countsPartition path =>
      some (source.discountPartition.setCollaborator index (.executes path))
  | .executes path => some (source.setCollaborator index (.requests path))
  | .tests path =>
      some <| source.setCollaborator index <|
        if !source.hasPendingIterations || path.isEmpty then .returned
        else .requests path
  | .returned => none

end Source

inductive Action where
  /-- A collaborator is created, and runs on the CPU. -/
  | create (cpu : Nat)
  | perform (index : Nat)
  deriving DecidableEq

def step (useDistributionFunction : Bool) (source : Source) :
    Action → Option Source
  | .create cpu =>
      (getPartitionPath useDistributionFunction source.partitions.length
        cpu).map fun path =>
          { source with
            collaborators := source.collaborators ++ [.requests path] }
  | .perform index =>
      source.collaborators[index]?.bind (source.perform index)

/-- The counter of the partition stays below the limit of its type. -/
def permits (source : Source) : Action → Bool
  | .create _ => true
  | .perform index =>
      match source.collaborators[index]? with
      | some (.requests (partition :: _)) =>
          source.partitions[partition]?.all fun current =>
            current.nextLowerBound + source.steppedChunksize < sizeLimit
      | _ => true

def Permitted (source : Source) (action : Action) : Prop :=
  permits source action = true

instance (source : Source) (action : Action) :
    Decidable (Permitted source action) :=
  inferInstanceAs (Decidable (permits source action = true))

/-! ## The invariant -/

def Partition.isOpen (partition : Partition) : Bool :=
  partition.nextLowerBound < partition.upperBound

namespace Collaborator

def path : Collaborator → List Nat
  | .requests path | .countsPartition path | .executes path | .tests path =>
      path
  | .returned => []

/-- The partitions that the collaborator is going to discount. -/
def discounts : Collaborator → Nat
  | .countsPartition _ => 1
  | _ => 0

end Collaborator

/-- The chunk has been taken from the partition. -/
structure Chunk.IsFrom (chunk : Chunk) (part : Bounds)
    (current : Partition) : Prop where
  above : part.lowerBound ≤ chunk.lowerBound
  nonempty : chunk.lowerBound < chunk.upperBound
  below : chunk.upperBound ≤ part.upperBound
  taken : chunk.upperBound ≤ current.nextLowerBound

/-- The state of a partition against the part of the range that it started
with. -/
structure Partition.Follows (current : Partition) (part : Bounds)
    (obtained : List Chunk) : Prop where
  upperBound : current.upperBound = part.upperBound
  started : part.lowerBound ≤ current.nextLowerBound
  /-- What the counter has passed has been obtained. -/
  covered : ∀ iteration, part.lowerBound ≤ iteration →
    iteration < part.upperBound → iteration < current.nextLowerBound →
      ∃ chunk ∈ obtained, chunk.Contains iteration

structure Invariant (parts : List Bounds) (source : Source) : Prop where
  length : source.partitions.length = parts.length
  follows : ∀ (index : Nat) part (current : Partition), parts[index]? = some part →
    source.partitions[index]? = some current →
      current.Follows part source.obtained
  chunks : ∀ chunk ∈ source.obtained, ∃ (index : Nat) (part : Bounds) (current : Partition),
    parts[index]? = some part ∧ source.partitions[index]? = some current ∧
      chunk.IsFrom part current
  disjoint : source.obtained.Pairwise fun first second =>
    first.upperBound ≤ second.lowerBound ∨
      second.upperBound ≤ first.lowerBound
  remaining : source.remainingPartitions =
    source.partitions.countP Partition.isOpen +
      total Collaborator.discounts source.collaborators
  small : source.remainingPartitions < sizeLimit
  /-- What a collaborator has left behind has no chunks left. -/
  visited : ∀ collaborator ∈ source.collaborators,
    ∀ (index : Nat) (current : Partition), source.partitions[index]? = some current →
      index ∉ collaborator.path → current.isOpen = false

namespace Invariant

variable {parts : List Bounds} {source next : Source} {index : Nat}
  {collaborator : Collaborator}

/-- A collaborator goes on, and the partitions stay as they are. -/
theorem moves (invariant : Invariant parts source)
    (found : source.collaborators[index]? = some collaborator)
    {remaining : Nat} (new : Collaborator)
    (discounts : remaining + collaborator.discounts =
      source.remainingPartitions + new.discounts)
    (fewer : remaining ≤ source.remainingPartitions)
    (visited : ∀ (partition : Nat) (current : Partition),
      source.partitions[partition]? = some current →
        partition ∉ new.path → current.isOpen = false) :
    Invariant parts
      ({ source with remainingPartitions := remaining }.setCollaborator
        index new) :=
  { invariant with
    remaining := by
      have before := invariant.remaining
      have replaced := total_replaceAt Collaborator.discounts [new] found
      rw [total_singleton] at replaced
      change remaining = source.partitions.countP Partition.isOpen +
        total Collaborator.discounts
          (replaceAt source.collaborators index [new])
      omega
    small := lt_of_le_of_lt fewer invariant.small
    visited := by
      intro other member
      rcases mem_replaceAt member with added | old
      · rw [List.mem_singleton.mp added]
        exact visited
      · exact invariant.visited other old }

theorem left_behind (invariant : Invariant parts source)
    (found : source.collaborators[index]? = some collaborator)
    {partition : Nat} {current : Partition}
    (here : source.partitions[partition]? = some current)
    (left : partition ∉ collaborator.path) : current.isOpen = false :=
  invariant.visited collaborator (List.mem_of_getElem? found) partition
    current here left

/-- A decrement finds a partition to discount. -/
theorem remaining_pos (invariant : Invariant parts source) {path : List Nat}
    (found : source.collaborators[index]? = some (.countsPartition path)) :
    0 < source.remainingPartitions := by
  have before := invariant.remaining
  have replaced := total_replaceAt Collaborator.discounts [] found
  rw [total_nil, Collaborator.discounts] at replaced
  omega

theorem isOpen_of_remaining (invariant : Invariant parts source)
    (nothing : source.remainingPartitions = 0) {partition : Nat}
    {current : Partition}
    (here : source.partitions[partition]? = some current) :
    current.isOpen = false := by
  have count : source.partitions.countP Partition.isOpen = 0 := by
    have before := invariant.remaining
    omega
  rw [List.countP_eq_zero] at count
  exact Bool.eq_false_iff.mpr (count current (List.mem_of_getElem? here))

end Invariant

/-! ## A request -/

section Request

variable {parts : List Bounds} {source : Source} {partition : Nat}
  {part : Bounds} {current : Partition}

/-- The counter moves on by a chunk. -/
def Partition.advanced (current : Partition) (amount : Nat) : Partition :=
  { current with nextLowerBound := current.nextLowerBound + amount }

theorem getElem?_fetchAdd
    (fits : current.nextLowerBound + source.steppedChunksize < sizeLimit)
    (here : source.partitions[partition]? = some current) (other : Nat) :
    (source.fetchAdd partition).partitions[other]? =
      if other = partition then
        some (current.advanced source.steppedChunksize)
      else source.partitions[other]? := by
  unfold Source.fetchAdd
  dsimp only
  rw [List.getElem?_modify]
  by_cases same : other = partition
  · subst same
    simp [here, Partition.advanced, sizeAdd_of_lt fits]
  · simp [same, Ne.symm same]

/-- The chunk is the part of the range that the counter passes. -/
theorem contains_chunkAt
    (fits : current.nextLowerBound + source.steppedChunksize < sizeLimit)
    (iteration : Nat) :
    (source.chunkAt current).Contains iteration ↔
      current.nextLowerBound ≤ iteration ∧
        iteration < current.nextLowerBound + source.steppedChunksize ∧
        iteration < current.upperBound := by
  unfold Chunk.Contains Source.chunkAt
  dsimp only
  rw [sizeAdd_of_lt fits, lt_min_iff]

/-- A partition whose counter has moved on, with the chunk that was passed. -/
theorem Partition.Follows.advanced {obtained later : List Chunk}
    (follows : current.Follows part obtained) (amount : Nat)
    (kept : ∀ chunk ∈ obtained, chunk ∈ later)
    (passed : ∀ iteration, current.nextLowerBound ≤ iteration →
      iteration < current.nextLowerBound + amount →
      iteration < current.upperBound →
        ∃ chunk ∈ later, chunk.Contains iteration) :
    (current.advanced amount).Follows part later where
  upperBound := follows.upperBound
  started := follows.started.trans (Nat.le_add_right _ _)
  covered := by
    intro iteration above below behind
    by_cases old : iteration < current.nextLowerBound
    · obtain ⟨chunk, member, inside⟩ :=
        follows.covered iteration above below old
      exact ⟨chunk, kept chunk member, inside⟩
    · apply passed iteration (not_lt.mp old) behind
      rw [follows.upperBound]
      exact below

theorem Partition.Follows.mono {obtained later : List Chunk}
    (follows : current.Follows part obtained)
    (kept : ∀ chunk ∈ obtained, chunk ∈ later) :
    current.Follows part later :=
  { follows with
    covered := by
      intro iteration above below behind
      obtain ⟨chunk, member, inside⟩ :=
        follows.covered iteration above below behind
      exact ⟨chunk, kept chunk member, inside⟩ }

theorem Partition.isOpen_advanced (amount : Nat)
    (closed : current.isOpen = false) :
    (current.advanced amount).isOpen = false := by
  unfold Partition.isOpen Partition.advanced at *
  rw [decide_eq_false_iff_not] at closed ⊢
  dsimp only
  omega

namespace Invariant

/-- What a request does to the counter of a partition and to the chunks. -/
theorem fetchAdd (invariant : Invariant parts source) {index : Nat}
    {collaborator : Collaborator} (later : List Chunk) (new : Collaborator)
    (found : source.collaborators[index]? = some collaborator)
    (plain : collaborator.discounts = 0)
    (inPart : parts[partition]? = some part)
    (here : source.partitions[partition]? = some current)
    (fits : current.nextLowerBound + source.steppedChunksize < sizeLimit)
    (kept : ∀ chunk ∈ source.obtained, chunk ∈ later)
    (passed : ∀ iteration, current.nextLowerBound ≤ iteration →
      iteration < current.nextLowerBound + source.steppedChunksize →
      iteration < current.upperBound →
        ∃ chunk ∈ later, chunk.Contains iteration)
    (chunks : ∀ chunk ∈ later, chunk ∈ source.obtained ∨
      chunk.IsFrom part (current.advanced source.steppedChunksize))
    (disjoint : later.Pairwise fun first second =>
      first.upperBound ≤ second.lowerBound ∨
        second.upperBound ≤ first.lowerBound)
    (discounts : current.isOpen.toNat =
      (current.advanced source.steppedChunksize).isOpen.toNat +
        new.discounts)
    (path : ∀ other ∈ collaborator.path, other ∈ new.path ∨
      other = partition ∧
        (current.advanced source.steppedChunksize).isOpen = false) :
    Invariant parts
      { (source.fetchAdd partition).setCollaborator index new with
        obtained := later } := by
  have partitions := getElem?_fetchAdd fits here
  refine
    { length := ?_, follows := ?_, chunks := ?_, disjoint := disjoint
      remaining := ?_, small := invariant.small, visited := ?_ }
  · rw [← invariant.length]
    exact List.length_modify ..
  · intro other otherPart otherCurrent inParts there
    change (source.fetchAdd partition).partitions[other]? = _ at there
    rw [partitions] at there
    split at there
    · rename_i same
      subst same
      cases there
      rw [inPart] at inParts
      cases inParts
      exact (invariant.follows _ _ _ inPart here).advanced _ kept passed
    · exact (invariant.follows _ _ _ inParts there).mono kept
  · intro chunk member
    change ∃ other otherPart otherCurrent, _ ∧
      (source.fetchAdd partition).partitions[other]? = _ ∧ _
    rcases chunks chunk member with old | taken
    · obtain ⟨other, otherPart, otherCurrent, inParts, there, isFrom⟩ :=
        invariant.chunks chunk old
      by_cases same : other = partition
      · subst same
        rw [here] at there
        cases there
        refine ⟨other, otherPart, _, inParts, by rw [partitions, if_pos rfl],
          ?_⟩
        exact { isFrom with
          taken := isFrom.taken.trans (Nat.le_add_right _ _) }
      · exact ⟨other, otherPart, otherCurrent, inParts,
          by rw [partitions, if_neg same, there], isFrom⟩
    · exact ⟨partition, part, _, inPart, by rw [partitions, if_pos rfl],
        taken⟩
  · have before := invariant.remaining
    have replaced := total_replaceAt Collaborator.discounts [new] found
    have counted := countP_modify Partition.isOpen
      (fun current : Partition =>
        { current with
          nextLowerBound :=
            sizeAdd current.nextLowerBound source.steppedChunksize }) here
    rw [total_singleton] at replaced
    rw [sizeAdd_of_lt fits] at counted
    change source.remainingPartitions =
      (source.fetchAdd partition).partitions.countP Partition.isOpen +
        total Collaborator.discounts
          (replaceAt source.collaborators index [new])
    change (source.fetchAdd partition).partitions.countP Partition.isOpen + _
      = _ + (current.advanced source.steppedChunksize).isOpen.toNat
        at counted
    omega
  · intro other member place placed there left
    change (source.fetchAdd partition).partitions[place]? = _ at there
    rw [partitions] at there
    have leaves : ∀ old ∈ source.collaborators, place ∉ old.path →
        placed.isOpen = false := by
      intro old inOld notOn
      split at there
      · rename_i same
        subst same
        cases there
        exact Partition.isOpen_advanced _
          (invariant.visited old inOld place current here notOn)
      · exact invariant.visited old inOld place placed there notOn
    rcases mem_replaceAt member with added | old
    · rw [List.mem_singleton.mp added] at left
      by_cases onPath : place ∈ collaborator.path
      · rcases path place onPath with still | ⟨same, closed⟩
        · exact absurd still left
        · rw [if_pos same] at there
          cases there
          exact closed
      · exact leaves collaborator (List.mem_of_getElem? found) onPath
    · exact leaves other old left

/-- A chunk at the counter of a partition is disjoint from those obtained
before. -/
theorem disjoint_chunkAt (invariant : Invariant parts source)
    (ordered : parts.Pairwise fun first second =>
      first.upperBound ≤ second.lowerBound)
    (inPart : parts[partition]? = some part)
    (here : source.partitions[partition]? = some current) {chunk : Chunk}
    (member : chunk ∈ source.obtained) :
    (source.chunkAt current).upperBound ≤ chunk.lowerBound ∨
      chunk.upperBound ≤ (source.chunkAt current).lowerBound := by
  obtain ⟨other, otherPart, otherCurrent, inParts, there, isFrom⟩ :=
    invariant.chunks chunk member
  have follows := invariant.follows _ _ _ inPart here
  have capped : (source.chunkAt current).upperBound ≤ part.upperBound := by
    rw [← follows.upperBound]
    exact min_le_right _ _
  have started : part.lowerBound ≤ (source.chunkAt current).lowerBound :=
    follows.started
  obtain ⟨otherInside, otherAt⟩ := List.getElem?_eq_some_iff.mp inParts
  obtain ⟨inside, atPart⟩ := List.getElem?_eq_some_iff.mp inPart
  rw [List.pairwise_iff_getElem] at ordered
  rcases lt_trichotomy other partition with before | same | after
  · have apart := ordered other partition otherInside inside before
    rw [otherAt, atPart] at apart
    exact Or.inr (isFrom.below.trans (apart.trans started))
  · subst same
    rw [here] at there
    cases there
    exact Or.inr isFrom.taken
  · have apart := ordered partition other inside otherInside after
    rw [otherAt, atPart] at apart
    exact Or.inl (capped.trans (apart.trans isFrom.above))

theorem request (invariant : Invariant parts source)
    (ordered : parts.Pairwise fun first second =>
      first.upperBound ≤ second.lowerBound)
    {index : Nat} {rest : List Nat}
    (found : source.collaborators[index]? =
      some (.requests (partition :: rest)))
    (here : source.partitions[partition]? = some current)
    (fits : current.nextLowerBound + source.steppedChunksize < sizeLimit)
    (positive : 0 < source.steppedChunksize) :
    Invariant parts
      (source.getPendingIterations index partition rest current) := by
  obtain ⟨part, inPart⟩ : ∃ part, parts[partition]? = some part := by
    obtain ⟨inside, -⟩ := List.getElem?_eq_some_iff.mp here
    rw [invariant.length] at inside
    exact ⟨_, List.getElem?_eq_getElem inside⟩
  have follows := invariant.follows _ _ _ inPart here
  have upper : (source.chunkAt current).upperBound =
      min (current.nextLowerBound + source.steppedChunksize)
        current.upperBound := by
    unfold Source.chunkAt
    rw [sizeAdd_of_lt fits]
  unfold Source.getPendingIterations
  dsimp only
  split
  · rename_i inTime
    apply invariant.fetchAdd _ _ found rfl inPart here fits
    · exact fun chunk member => List.mem_cons_of_mem _ member
    · intro iteration above below inside
      exact ⟨source.chunkAt current, List.mem_cons_self,
        (contains_chunkAt fits iteration).mpr ⟨above, below, inside⟩⟩
    · intro chunk member
      rcases List.mem_cons.mp member with rfl | old
      · right
        refine ⟨follows.started, ?_, ?_, ?_⟩
        · rw [upper]
          exact lt_min (Nat.lt_add_of_pos_right positive) inTime
        · rw [upper, ← follows.upperBound]
          exact min_le_right _ _
        · rw [upper]
          exact min_le_left _ _
      · exact Or.inl old
    · refine List.pairwise_cons.mpr ⟨?_, invariant.disjoint⟩
      intro chunk member
      exact invariant.disjoint_chunkAt ordered inPart here member
    · have isOpen : current.isOpen = true := decide_eq_true inTime
      rw [isOpen, upper]
      unfold Partition.isOpen Partition.advanced
      dsimp only
      split
      · rename_i last
        have closes : ¬ current.nextLowerBound + source.steppedChunksize <
            current.upperBound := by
          omega
        rw [decide_eq_false closes]
        rfl
      · rename_i notLast
        have remains : current.nextLowerBound + source.steppedChunksize <
            current.upperBound := by
          omega
        rw [decide_eq_true remains]
        rfl
    · intro other member
      left
      split
      · exact member
      · exact member
  · rename_i late
    have closed : current.isOpen = false := decide_eq_false late
    apply invariant.fetchAdd source.obtained (.tests rest) found rfl inPart
      here fits
    · exact fun chunk member => member
    · intro iteration above _ inside
      exact absurd (lt_of_le_of_lt above inside) late
    · exact fun chunk member => Or.inl member
    · exact invariant.disjoint
    · rw [closed, Partition.isOpen_advanced _ closed]
      rfl
    · intro other member
      rcases List.mem_cons.mp member with same | inRest
      · exact Or.inr ⟨same, Partition.isOpen_advanced _ closed⟩
      · exact Or.inl inRest

end Invariant

end Request

namespace Invariant

variable {parts : List Bounds} {source next : Source} {index : Nat}

theorem perform (invariant : Invariant parts source)
    (ordered : parts.Pairwise fun first second =>
      first.upperBound ≤ second.lowerBound)
    (positive : 0 < source.steppedChunksize) {collaborator : Collaborator}
    (found : source.collaborators[index]? = some collaborator)
    (permitted : Permitted source (.perform index))
    (performed : source.perform index collaborator = some next) :
    Invariant parts next := by
  cases collaborator with
  | requests path =>
      cases path with
      | nil => cases performed
      | cons partition rest =>
          obtain ⟨current, here, rfl⟩ :=
            Option.map_eq_some_iff.mp performed
          have fits : current.nextLowerBound + source.steppedChunksize <
              sizeLimit := by
            simpa [Permitted, permits, found, here] using permitted
          exact invariant.request ordered found here fits positive
  | countsPartition path =>
      cases performed
      have some := invariant.remaining_pos found
      apply invariant.moves found (.executes path)
      · rw [sizeSub_of_le some invariant.small]
        simp only [Collaborator.discounts]
        omega
      · rw [sizeSub_of_le some invariant.small]
        omega
      · exact fun partition current here left =>
          invariant.left_behind found here left
  | executes path =>
      cases performed
      exact invariant.moves found (.requests path) rfl le_rfl
        fun partition current here left =>
          invariant.left_behind found here left
  | tests path =>
      cases performed
      apply invariant.moves found
      · split <;> rfl
      · exact le_rfl
      · intro partition current here left
        split at left
        · rename_i leaves
          rw [Bool.or_eq_true] at leaves
          rcases leaves with nothing | ended
          · apply invariant.isOpen_of_remaining _ here
            simpa [Source.hasPendingIterations] using nothing
          · rw [List.isEmpty_iff] at ended
            subst ended
            exact invariant.left_behind found here (by simp [Collaborator.path])
        · exact invariant.left_behind found here left
  | returned => cases performed

theorem create (invariant : Invariant parts source)
    (few : source.partitions.length < 2 ^ 31)
    {useDistributionFunction : Bool} {cpu : Nat} {path : List Nat}
    (computed : getPartitionPath useDistributionFunction
      source.partitions.length cpu = some path) :
    Invariant parts
      { source with
        collaborators := source.collaborators ++ [.requests path] } :=
  { invariant with
    remaining := by
      change source.remainingPartitions = _
      rw [total_append, total_singleton]
      exact invariant.remaining
    visited := by
      intro collaborator member partition current here left
      rcases List.mem_append.mp member with old | new
      · exact invariant.visited collaborator old partition current here left
      · rw [List.mem_singleton.mp new] at left
        obtain ⟨inside, -⟩ := List.getElem?_eq_some_iff.mp here
        exact absurd (mem_getPartitionPath few computed inside) left }

end Invariant

theorem bounds_setCollaborator (source : Source) (index : Nat)
    (collaborator : Collaborator) :
    (source.setCollaborator index collaborator).bounds = source.bounds := by
  cases source
  rfl

theorem bounds_discountPartition (source : Source) :
    source.discountPartition.bounds = source.bounds := by
  cases source
  rfl

/-- The bounds do not change. -/
theorem bounds_perform {source next : Source} {index : Nat}
    {collaborator : Collaborator}
    (performed : source.perform index collaborator = some next) :
    next.bounds = source.bounds := by
  cases collaborator with
  | requests path =>
      cases path with
      | nil => cases performed
      | cons partition rest =>
          obtain ⟨current, here, rfl⟩ :=
            Option.map_eq_some_iff.mp performed
          unfold Source.getPendingIterations
          dsimp only
          split <;> rfl
  | countsPartition path =>
      cases performed
      rw [bounds_setCollaborator, bounds_discountPartition]
  | executes path =>
      cases performed
      rfl
  | tests path =>
      cases performed
      rfl
  | returned => cases performed

/-- Another collaborator stays where it is. -/
theorem getElem?_replaceAt {collaborators : List Collaborator} {index other : Nat}
    (inside : index < collaborators.length) (different : other ≠ index)
    (new : Collaborator) :
    (replaceAt collaborators index [new])[other]? = collaborators[other]? := by
  have isSet : replaceAt collaborators index [new] =
      collaborators.set index new := by
    rw [List.set_eq_take_append_cons_drop, if_pos inside]
    simp [replaceAt]
  rw [isSet, List.getElem?_set_ne (Ne.symm different)]

/-- A step moves the collaborator that makes it, and no partition is counted
again. -/
theorem perform_cases {source next : Source} {index : Nat}
    {collaborator : Collaborator}
    (performed : source.perform index collaborator = some next) :
    (∃ new, next.collaborators =
      replaceAt source.collaborators index [new]) ∧
      (next.remainingPartitions = source.remainingPartitions ∨
        (∃ path, collaborator = .countsPartition path) ∧
          next.remainingPartitions =
            sizeSub source.remainingPartitions 1) := by
  cases collaborator with
  | requests path =>
      cases path with
      | nil => cases performed
      | cons partition rest =>
          obtain ⟨current, here, rfl⟩ :=
            Option.map_eq_some_iff.mp performed
          unfold Source.getPendingIterations
          dsimp only
          split
          · exact ⟨⟨_, rfl⟩, Or.inl rfl⟩
          · exact ⟨⟨_, rfl⟩, Or.inl rfl⟩
  | countsPartition path =>
      cases performed
      refine ⟨⟨.executes path, ?_⟩, Or.inr ⟨⟨path, rfl⟩, ?_⟩⟩
      · rw [Source.setCollaborator, Source.discountPartition]
      · rw [Source.setCollaborator, Source.discountPartition]
  | executes path =>
      cases performed
      exact ⟨⟨_, rfl⟩, Or.inl rfl⟩
  | tests path =>
      cases performed
      exact ⟨⟨_, rfl⟩, Or.inl rfl⟩
  | returned => cases performed

/-- A collaborator that has returned does not move. -/
theorem returned_perform {source next : Source} {index : Nat}
    {collaborator : Collaborator}
    (found : source.collaborators[index]? = some collaborator)
    (performed : source.perform index collaborator = some next) {other : Nat}
    (returned : source.collaborators[other]? = some .returned) :
    next.collaborators[other]? = some .returned := by
  have different : other ≠ index := by
    rintro rfl
    rw [found] at returned
    cases returned
    cases performed
  obtain ⟨⟨new, replaced⟩, -⟩ := perform_cases performed
  obtain ⟨inside, -⟩ := List.getElem?_eq_some_iff.mp found
  rw [replaced, getElem?_replaceAt inside different new]
  exact returned

/-- The partitions that remain become fewer. -/
theorem Invariant.remaining_perform {parts : List Bounds}
    {source next : Source} {index : Nat} {collaborator : Collaborator}
    (invariant : Invariant parts source)
    (found : source.collaborators[index]? = some collaborator)
    (performed : source.perform index collaborator = some next) :
    next.remainingPartitions ≤ source.remainingPartitions := by
  obtain ⟨-, same | ⟨⟨path, rfl⟩, fewer⟩⟩ := perform_cases performed
  · exact same.le
  · have some := invariant.remaining_pos found
    rw [fewer, sizeSub_of_le some invariant.small]
    exact Nat.sub_le _ _

/-- What a run keeps. -/
structure Runs (bounds : Bounds) (partitionCount : Nat)
    (source : Source) : Prop where
  invariant : Invariant (splitIterations partitionCount bounds) source
  bounds : source.bounds = bounds

section Runs

variable {bounds given : Bounds} {partitionCount : Nat}
  {source next : Source}

theorem steppedChunksize_pos (normal : bounds.IsNormal)
    (small : bounds.chunksize < sizeLimit) (same : source.bounds = bounds) :
    0 < source.steppedChunksize := by
  unfold Source.steppedChunksize
  rw [same, normal.step, sizeMul_of_lt (by omega), Nat.one_mul]
  exact normal.positive

theorem Runs.create (runs : Runs bounds partitionCount source)
    (few : partitionCount < 2 ^ 31) {useDistributionFunction : Bool}
    {cpu : Nat} {path : List Nat}
    (computed : getPartitionPath useDistributionFunction
      source.partitions.length cpu = some path) :
    Runs bounds partitionCount
      { source with
        collaborators := source.collaborators ++ [.requests path] } := by
  refine ⟨runs.invariant.create ?_ computed, runs.bounds⟩
  rw [runs.invariant.length]
  exact lt_of_eq_of_lt (length_splitFrom _ _ _ _) few

theorem Runs.step (runs : Runs bounds partitionCount source)
    (normal : bounds.IsNormal) (small : bounds.chunksize < sizeLimit)
    (fits : bounds.Fits)
    (count : 0 < partitionCount ∧ partitionCount < 2 ^ 31)
    {useDistributionFunction : Bool} {action : Action}
    (permitted : Permitted source action)
    (taken : step useDistributionFunction source action = some next) :
    Runs bounds partitionCount next := by
  have ordered := (consecutive_splitIterations normal fits count.1).pairwise
  cases action with
  | create cpu =>
      obtain ⟨path, computed, rfl⟩ := Option.map_eq_some_iff.mp taken
      exact runs.create count.2 computed
  | perform index =>
      obtain ⟨collaborator, found, performed⟩ :=
        Option.bind_eq_some_iff.mp taken
      exact
        ⟨runs.invariant.perform ordered
            (steppedChunksize_pos normal small runs.bounds) found permitted
            performed,
          (bounds_perform performed).trans runs.bounds⟩

/-- The counters of the partitions start at the lower bounds. -/
theorem Runs.initial (normal : bounds.IsNormal) (fits : bounds.Fits)
    (positive : 0 < partitionCount) (small : partitionCount < sizeLimit)
    (chosen : given.setChunksize partitionCount = bounds) :
    Runs bounds partitionCount (initialized partitionCount given) := by
  subst chosen
  have consecutive := consecutive_splitIterations normal fits positive
  have length := length_splitFrom (given.setChunksize partitionCount)
    partitionCount partitionCount
    (given.setChunksize partitionCount).lowerBound
  refine ⟨⟨List.length_map .., ?_, ?_, List.Pairwise.nil, ?_, ?_, ?_⟩, rfl⟩
  · intro index part current inPart here
    change ((splitIterations _ _).map _)[index]? = _ at here
    rw [List.getElem?_map, inPart] at here
    cases here
    exact ⟨rfl, le_rfl, fun iteration above _ below =>
      absurd (lt_of_le_of_lt above below) (lt_irrefl _)⟩
  · intro chunk member
    cases member
  · change (List.filter _ _).length = _ + 0
    rw [Nat.add_zero, ← List.countP_eq_length_filter]
    change _ = ((splitIterations _ _).map _).countP _
    rw [List.countP_map]
    apply List.countP_congr
    intro part member
    obtain ⟨-, ordered, below⟩ := consecutive.within member
    have count : part.getIterationCount =
        part.upperBound - part.lowerBound :=
      sizeSub_of_le ordered (lt_of_le_of_lt below normal.fits)
    rw [count]
    simp [Partition.isOpen]
  · refine lt_of_le_of_lt (List.length_filter_le _ _) ?_
    change (splitFrom _ _ _ _).length < sizeLimit
    rw [length]
    exact small
  · intro collaborator member
    cases member

end Runs

/-! ## Every iteration is handed out once -/

structure Source.HandsOutOnce (given : Bounds) (source : Source) :
    Prop where
  once : ∀ iteration,
    (source.obtained.filter fun chunk => chunk.Contains iteration).length ≤ 1
  within : ∀ chunk ∈ source.obtained, ∀ iteration,
    chunk.Contains iteration →
      given.lowerBound ≤ iteration ∧ iteration < given.upperBound
  /-- No decrement goes below zero. -/
  discounted : ∀ path, .countsPartition path ∈ source.collaborators →
    0 < source.remainingPartitions
  complete : .returned ∈ source.collaborators →
    ∀ iteration, given.lowerBound ≤ iteration →
      iteration < given.upperBound →
        ∃ chunk ∈ source.obtained, chunk.Contains iteration

/-- What the caller gives: a normalized loop, with or without a size of the
chunks. -/
structure Bounds.IsGiven (given : Bounds) : Prop where
  ordered : given.lowerBound ≤ given.upperBound
  fits : given.upperBound < sizeLimit
  step : given.step = 1
  chunksize : given.chunksize < sizeLimit

theorem Bounds.isNormal_setChunksize {given : Bounds}
    (isGiven : given.IsGiven) (partitionCount : Nat) :
    (given.setChunksize partitionCount).IsNormal ∧
      (given.setChunksize partitionCount).chunksize < sizeLimit ∧
      (given.setChunksize partitionCount).lowerBound = given.lowerBound ∧
      (given.setChunksize partitionCount).upperBound =
        given.upperBound := by
  unfold Bounds.setChunksize
  split
  · refine ⟨⟨isGiven.ordered, isGiven.fits, isGiven.step,
      lt_of_lt_of_le Nat.zero_lt_one (le_max_right _ _)⟩, ?_, rfl, rfl⟩
    have count : given.getIterationCount < sizeLimit :=
      Nat.mod_lt _ (by decide)
    exact max_lt (lt_of_le_of_lt (Nat.div_le_self _ _) count) (by decide)
  · rename_i nonzero
    exact ⟨⟨isGiven.ordered, isGiven.fits, isGiven.step,
      Nat.pos_of_ne_zero nonzero⟩, isGiven.chunksize, rfl, rfl⟩

/-- Disjoint chunks contain an iteration at most once. -/
theorem length_filter_le_one {obtained : List Chunk}
    (disjoint : obtained.Pairwise fun first second =>
      first.upperBound ≤ second.lowerBound ∨
        second.upperBound ≤ first.lowerBound) (iteration : Nat) :
    (obtained.filter fun chunk => chunk.Contains iteration).length ≤ 1 := by
  induction obtained with
  | nil => exact Nat.zero_le 1
  | cons first rest inductionHypothesis =>
      obtain ⟨apart, disjointRest⟩ := List.pairwise_cons.mp disjoint
      by_cases inside : first.Contains iteration
      · have nothing :
            (rest.filter fun chunk => chunk.Contains iteration) = [] := by
          rw [List.filter_eq_nil_iff]
          intro chunk member contained
          have also : chunk.Contains iteration := of_decide_eq_true contained
          unfold Chunk.Contains at inside also
          rcases apart chunk member with before | after
          · omega
          · omega
        rw [List.filter_cons_of_pos (by simpa using inside), nothing]
        exact le_rfl
      · rw [List.filter_cons_of_neg (by simpa using inside)]
        exact inductionHypothesis disjointRest

theorem handsOutOnce_of_run {given : Bounds} {partitionCount : Nat}
    {useDistributionFunction : Bool} {source : Source}
    (isGiven : given.IsGiven)
    (count : 0 < partitionCount ∧ partitionCount < 2 ^ 31)
    (fits : (given.setChunksize partitionCount).Fits)
    (run : Run (step useDistributionFunction) Permitted
      (initialized partitionCount given) source) :
    source.HandsOutOnce given := by
  obtain ⟨normal, small, lower, upper⟩ :=
    Bounds.isNormal_setChunksize isGiven partitionCount
  have consecutive := consecutive_splitIterations normal fits count.1
  rw [lower, upper] at consecutive
  have limit : partitionCount < sizeLimit :=
    count.2.trans (by decide)
  obtain ⟨invariant, -⟩ : Runs (given.setChunksize partitionCount)
      partitionCount source :=
    run.invariant (Runs.initial normal fits count.1 limit rfl)
      fun _ _ _ runs permitted taken =>
        runs.step normal small fits count permitted taken
  refine ⟨length_filter_le_one invariant.disjoint, ?_, ?_, ?_⟩
  · intro chunk member iteration contained
    obtain ⟨index, part, current, inPart, -, isFrom⟩ :=
      invariant.chunks chunk member
    obtain ⟨above, -, below⟩ :=
      consecutive.within (List.mem_of_getElem? inPart)
    exact ⟨above.trans (isFrom.above.trans contained.1),
      lt_of_lt_of_le contained.2 (isFrom.below.trans below)⟩
  · intro path member
    obtain ⟨index, found⟩ := List.mem_iff_getElem?.mp member
    exact invariant.remaining_pos found
  · intro returned iteration above below
    obtain ⟨part, member, inside⟩ := consecutive.covers above below
    obtain ⟨index, inPart⟩ := List.mem_iff_getElem?.mp member
    obtain ⟨current, here⟩ :
        ∃ current, source.partitions[index]? = some current := by
      obtain ⟨bound, -⟩ := List.getElem?_eq_some_iff.mp inPart
      rw [← invariant.length] at bound
      exact ⟨_, List.getElem?_eq_getElem bound⟩
    have follows := invariant.follows index part current inPart here
    have closed := invariant.visited .returned returned index current here
      (by simp [Collaborator.path])
    rw [Partition.isOpen, decide_eq_false_iff_not, not_lt] at closed
    apply follows.covered iteration inside.1 inside.2
    have bound := follows.upperBound
    omega

/-- Ten iterations in chunks of four. -/
def tenIterations : Bounds where
  lowerBound := 0
  upperBound := 10
  chunksize := 4

/-- A collaborator takes the chunks of two partitions while another one comes
too late. -/
def takingTurns : List Action :=
  .create 0 :: .create 0 :: .perform 0 :: .perform 1 ::
    List.replicate 11 (.perform 0) ++ [.perform 1]

theorem handsOutOnce_takingTurns :
    ∃ source,
      Run (step false) Permitted (initialized 2 tenIterations) source ∧
      .returned ∈ source.collaborators ∧
      source.HandsOutOnce tenIterations := by
  let isOver (source : Source) : Bool :=
    decide (.returned ∈ source.collaborators)
  obtain ⟨source, run, holds⟩ :
      ∃ source, Run (step false) Permitted (initialized 2 tenIterations)
        source ∧ isOver source = true :=
    exists_run_of_executeAllowed takingTurns _ isOver (by decide)
  have isGiven : tenIterations.IsGiven :=
    ⟨by decide, by decide, rfl, by decide⟩
  exact ⟨source, run, of_decide_eq_true holds,
    handsOutOnce_of_run isGiven (by decide) (by decide) run⟩

/-- Ten iterations in a chunk of the largest size. -/
def largestChunk : Bounds where
  lowerBound := 10
  upperBound := 20
  chunksize := 2 ^ 64 - 1

theorem handsOutOnce_fails :
    ¬ ∀ (given : Bounds) (partitionCount : Nat)
      (useDistributionFunction : Bool) (source : Source),
      given.IsGiven → 0 < partitionCount ∧ partitionCount < 2 ^ 31 →
        Run (step useDistributionFunction) (fun _ _ => True)
          (initialized partitionCount given) source →
        source.HandsOutOnce given := by
  intro holds
  let lost (source : Source) : Bool :=
    decide (.returned ∈ source.collaborators) && source.obtained.isEmpty
  obtain ⟨source, run, wrong⟩ :
      ∃ source, Run (step false) (fun _ _ => True)
        (initialized 1 largestChunk) source ∧ lost source = true :=
    exists_run_of_executeAllowed [.create 0, .perform 0, .perform 0] _ lost
      (by decide)
  simp only [lost, Bool.and_eq_true, decide_eq_true_eq,
    List.isEmpty_iff] at wrong
  have isGiven : largestChunk.IsGiven :=
    ⟨by decide, by decide, rfl, by decide⟩
  obtain ⟨chunk, member, -⟩ :=
    (holds largestChunk 1 false source isGiven (by decide) run).complete
      wrong.1 10 (by decide) (by decide)
  rw [wrong.2] at member
  cases member

end Nanos6.Taskloop
