import Mathlib.Data.Int.ModEq
import Mathlib.Data.List.Perm.Subperm
import Mathlib.Tactic.Common
import Mathlib.Tactic.Ring

/-!
# The partitions of a taskloop

The iterations of a taskloop are split in as many partitions as there are groups
of CPUs, each of them a whole number of chunks except for the last one that is
not empty.  The arithmetic is that of `size_t` and, in the path of a
collaborator, of `int`.
-/

namespace Nanos6.Taskloop

/-- One more than the largest value of type `size_t`. -/
def sizeLimit : Nat := 2 ^ 64

def sizeAdd (first second : Nat) : Nat :=
  (first + second) % sizeLimit

def sizeSub (first second : Nat) : Nat :=
  (first + sizeLimit - second) % sizeLimit

def sizeMul (first second : Nat) : Nat :=
  first * second % sizeLimit

theorem sizeAdd_of_lt {first second : Nat}
    (fits : first + second < sizeLimit) :
    sizeAdd first second = first + second :=
  Nat.mod_eq_of_lt fits

theorem sizeMul_of_lt {first second : Nat}
    (fits : first * second < sizeLimit) :
    sizeMul first second = first * second :=
  Nat.mod_eq_of_lt fits

theorem sizeSub_of_le {first second : Nat} (ordered : second ≤ first)
    (fits : first < sizeLimit) : sizeSub first second = first - second := by
  have shifted : first + sizeLimit - second =
      first - second + sizeLimit := by
    omega
  rw [sizeSub, shifted, Nat.add_mod_right, Nat.mod_eq_of_lt (by omega)]

/-- `nanos6_taskloop_bounds_t`. -/
structure Bounds where
  lowerBound : Nat
  upperBound : Nat
  step : Nat := 1
  chunksize : Nat
  deriving DecidableEq, Repr

namespace Bounds

def getIterationCount (bounds : Bounds) : Nat :=
  sizeSub bounds.upperBound bounds.lowerBound

def totalChunks (bounds : Bounds) : Nat :=
  sizeAdd (bounds.getIterationCount / bounds.chunksize)
    (decide (0 < bounds.getIterationCount % bounds.chunksize)).toNat

end Bounds

/-- The loop of `splitIterations` over the partitions that remain. -/
def splitFrom (bounds : Bounds) (numPartitions : Nat) :
    Nat → Nat → List Bounds
  | 0, _ => []
  | remaining + 1, lowerBound =>
      let chunksPerPartition := bounds.totalChunks / numPartitions
      let extraChunk :=
        (decide (remaining + 1 ≤ bounds.totalChunks % numPartitions)).toNat
      let myIterations :=
        sizeMul (sizeAdd chunksPerPartition extraChunk) bounds.chunksize
      let upperBound :=
        min (sizeAdd lowerBound myIterations) bounds.upperBound
      { lowerBound := lowerBound
        upperBound := upperBound
        step := 1
        chunksize := bounds.chunksize } ::
          splitFrom bounds numPartitions remaining upperBound

def splitIterations (numPartitions : Nat) (bounds : Bounds) :
    List Bounds :=
  splitFrom bounds numPartitions numPartitions bounds.lowerBound

/-- `initialize` chooses the size of the chunks if there is none. -/
def Bounds.setChunksize (bounds : Bounds) (partitionCount : Nat) : Bounds :=
  if bounds.chunksize = 0 then
    { bounds with
      chunksize :=
        max (bounds.getIterationCount / (2 * partitionCount)) 1 }
  else bounds

/-! ## The split covers the range -/

/-- Intervals that follow one another from the one bound to the other. -/
def Consecutive : Nat → Nat → List Bounds → Prop
  | lower, upper, [] => lower = upper
  | lower, upper, first :: rest =>
      first.lowerBound = lower ∧ lower ≤ first.upperBound ∧
        Consecutive first.upperBound upper rest

/-- The bounds of a normalized loop, after the choice of the chunks. -/
structure Bounds.IsNormal (bounds : Bounds) : Prop where
  ordered : bounds.lowerBound ≤ bounds.upperBound
  fits : bounds.upperBound < sizeLimit
  step : bounds.step = 1
  positive : 0 < bounds.chunksize

/-- The whole chunks can be added to the lower bound. -/
def Bounds.Fits (bounds : Bounds) : Prop :=
  bounds.lowerBound + bounds.totalChunks * bounds.chunksize < sizeLimit

instance (bounds : Bounds) : Decidable bounds.Fits :=
  inferInstanceAs (Decidable (_ < _))

namespace Bounds

variable {bounds : Bounds}

theorem getIterationCount_eq (normal : bounds.IsNormal) :
    bounds.getIterationCount = bounds.upperBound - bounds.lowerBound :=
  sizeSub_of_le normal.ordered normal.fits

theorem totalChunks_eq (normal : bounds.IsNormal) :
    bounds.totalChunks =
      bounds.getIterationCount / bounds.chunksize +
        (decide (0 < bounds.getIterationCount % bounds.chunksize)).toNat := by
  apply sizeAdd_of_lt
  have fits := normal.fits
  have count := getIterationCount_eq normal
  have quotient := Nat.div_le_self bounds.getIterationCount bounds.chunksize
  have parts := Nat.div_add_mod bounds.getIterationCount bounds.chunksize
  have bit := Bool.toNat_le
    (decide (0 < bounds.getIterationCount % bounds.chunksize))
  by_cases whole : bounds.getIterationCount % bounds.chunksize = 0
  · simp only [whole, lt_irrefl, decide_false, Bool.toNat_false]
    omega
  · have product : bounds.getIterationCount / bounds.chunksize ≤
        bounds.chunksize * (bounds.getIterationCount / bounds.chunksize) :=
      Nat.le_mul_of_pos_left _ normal.positive
    omega

/-- The chunks cover the iterations, and the last one is needed. -/
theorem totalChunks_bounds (normal : bounds.IsNormal) :
    bounds.upperBound ≤
        bounds.lowerBound + bounds.totalChunks * bounds.chunksize ∧
      (bounds.totalChunks = 0 ∨
        bounds.lowerBound + bounds.totalChunks * bounds.chunksize <
          bounds.upperBound + bounds.chunksize) := by
  have ordered := normal.ordered
  have positive := normal.positive
  have count := getIterationCount_eq normal
  have parts := Nat.div_add_mod bounds.getIterationCount bounds.chunksize
  have small := Nat.mod_lt bounds.getIterationCount normal.positive
  rw [Nat.mul_comm] at parts
  rw [totalChunks_eq normal, Nat.add_mul]
  by_cases whole : bounds.getIterationCount % bounds.chunksize = 0
  · simp only [whole, lt_irrefl, decide_false, Bool.toNat_false]
    omega
  · have more : 0 < bounds.getIterationCount % bounds.chunksize :=
      Nat.pos_of_ne_zero whole
    simp only [more, decide_true, Bool.toNat_true]
    omega

end Bounds

/-- The chunks of the partitions that remain. -/
def chunksLeft (bounds : Bounds) (numPartitions remaining : Nat) : Nat :=
  bounds.totalChunks / numPartitions * remaining +
    min (bounds.totalChunks % numPartitions) remaining

theorem chunksLeft_self (bounds : Bounds) {numPartitions : Nat}
    (positive : 0 < numPartitions) :
    chunksLeft bounds numPartitions numPartitions = bounds.totalChunks := by
  have parts := Nat.div_add_mod bounds.totalChunks numPartitions
  have small := Nat.mod_lt bounds.totalChunks positive
  rw [Nat.mul_comm] at parts
  unfold chunksLeft
  omega

theorem chunksLeft_succ (bounds : Bounds) (numPartitions remaining : Nat) :
    chunksLeft bounds numPartitions (remaining + 1) =
      chunksLeft bounds numPartitions remaining +
        (bounds.totalChunks / numPartitions +
          (decide (remaining + 1 ≤
            bounds.totalChunks % numPartitions)).toNat) := by
  unfold chunksLeft
  rw [Nat.mul_add, Nat.mul_one]
  by_cases extra : remaining + 1 ≤ bounds.totalChunks % numPartitions
  · simp only [extra, decide_true, Bool.toNat_true]
    omega
  · simp only [extra, decide_false, Bool.toNat_false]
    omega

/-- Where the loop of `splitIterations` is: at the end, or as many chunks before
the end of the last one as remain. -/
def AtSplit (bounds : Bounds) (left lowerBound : Nat) : Prop :=
  (left = 0 ∧ lowerBound = bounds.upperBound) ∨
    (0 < left ∧ left ≤ bounds.totalChunks ∧
      lowerBound + left * bounds.chunksize =
        bounds.lowerBound + bounds.totalChunks * bounds.chunksize)

theorem AtSplit.left_le {bounds : Bounds} {left lowerBound : Nat}
    (position : AtSplit bounds left lowerBound) :
    left ≤ bounds.totalChunks := by
  rcases position with ⟨rfl, -⟩ | ⟨-, bound, -⟩
  · exact Nat.zero_le _
  · exact bound

/-- One iteration of the loop. -/
theorem AtSplit.next {bounds : Bounds} (normal : bounds.IsNormal)
    (fits : bounds.Fits) {left mine lowerBound : Nat}
    (position : AtSplit bounds (left + mine) lowerBound) :
    lowerBound ≤
        min (sizeAdd lowerBound (sizeMul mine bounds.chunksize))
          bounds.upperBound ∧
      AtSplit bounds left
        (min (sizeAdd lowerBound (sizeMul mine bounds.chunksize))
          bounds.upperBound) := by
  have limit := normal.fits
  unfold Bounds.Fits at fits
  obtain ⟨covers, needed⟩ := Bounds.totalChunks_bounds normal
  rcases position with ⟨none, rfl⟩ | ⟨some, bound, before⟩
  · obtain ⟨rfl, rfl⟩ : left = 0 ∧ mine = 0 := by omega
    have stays : sizeAdd bounds.upperBound (sizeMul 0 bounds.chunksize) =
        bounds.upperBound := by
      rw [sizeMul, Nat.zero_mul]
      exact sizeAdd_of_lt (by rw [Nat.zero_mod]; omega)
    rw [stays, min_self]
    exact ⟨le_rfl, Or.inl ⟨rfl, rfl⟩⟩
  · rw [Nat.add_mul] at before
    have product : sizeMul mine bounds.chunksize =
        mine * bounds.chunksize :=
      sizeMul_of_lt (by omega)
    have sum : sizeAdd lowerBound (mine * bounds.chunksize) =
        lowerBound + mine * bounds.chunksize :=
      sizeAdd_of_lt (by omega)
    rw [product, sum]
    by_cases done : left = 0
    · subst done
      have atEnd : min (lowerBound + mine * bounds.chunksize)
          bounds.upperBound = bounds.upperBound := by
        omega
      rw [atEnd]
      refine ⟨?_, Or.inl ⟨rfl, rfl⟩⟩
      have last : bounds.chunksize ≤ mine * bounds.chunksize :=
        Nat.le_mul_of_pos_left _ (by omega)
      rcases needed with nothing | below
      · omega
      · omega
    · have more : bounds.chunksize ≤ left * bounds.chunksize :=
        Nat.le_mul_of_pos_left _ (Nat.pos_of_ne_zero done)
      have inside : min (lowerBound + mine * bounds.chunksize)
          bounds.upperBound = lowerBound + mine * bounds.chunksize := by
        rcases needed with nothing | below
        · omega
        · omega
      rw [inside]
      exact ⟨Nat.le_add_right _ _,
        Or.inr ⟨Nat.pos_of_ne_zero done, by omega, by omega⟩⟩

theorem noWrap_chunks {bounds : Bounds}
    {remaining numPartitions lowerBound : Nat}
    (position : AtSplit bounds
      (chunksLeft bounds numPartitions (remaining + 1)) lowerBound) :
    sizeAdd (bounds.totalChunks / numPartitions)
        (decide (remaining + 1 ≤ bounds.totalChunks % numPartitions)).toNat =
      bounds.totalChunks / numPartitions +
        (decide (remaining + 1 ≤
          bounds.totalChunks % numPartitions)).toNat := by
  apply sizeAdd_of_lt
  have bound := position.left_le
  rw [chunksLeft_succ] at bound
  have total : bounds.totalChunks < sizeLimit := Nat.mod_lt _ (by decide)
  omega

theorem consecutive_splitFrom {bounds : Bounds} (normal : bounds.IsNormal)
    (fits : bounds.Fits) {numPartitions : Nat} (remaining : Nat) :
    ∀ lowerBound,
      AtSplit bounds (chunksLeft bounds numPartitions remaining) lowerBound →
        Consecutive lowerBound bounds.upperBound
          (splitFrom bounds numPartitions remaining lowerBound) := by
  induction remaining with
  | zero =>
      intro lowerBound position
      have nothing : chunksLeft bounds numPartitions 0 = 0 := by
        simp [chunksLeft]
      rw [nothing] at position
      rcases position with ⟨-, atEnd⟩ | ⟨impossible, -⟩
      · exact atEnd
      · exact absurd impossible (lt_irrefl 0)
  | succ remaining inductionHypothesis =>
      intro lowerBound position
      have noWrap := noWrap_chunks position
      rw [chunksLeft_succ] at position
      rw [splitFrom, noWrap]
      obtain ⟨below, later⟩ := position.next normal fits
      exact ⟨rfl, below, inductionHypothesis _ later⟩

/-- The first iteration has all the chunks before it. -/
theorem atSplit_splitIterations {bounds : Bounds}
    (normal : bounds.IsNormal)
    {numPartitions : Nat} (positive : 0 < numPartitions) :
    AtSplit bounds (chunksLeft bounds numPartitions numPartitions)
      bounds.lowerBound := by
  rw [chunksLeft_self bounds positive]
  have ordered := normal.ordered
  have covers := (Bounds.totalChunks_bounds normal).1
  by_cases nothing : bounds.totalChunks = 0
  · rw [nothing] at covers
    exact Or.inl ⟨nothing, by omega⟩
  · exact Or.inr ⟨Nat.pos_of_ne_zero nothing, le_rfl, rfl⟩

theorem consecutive_splitIterations {bounds : Bounds}
    (normal : bounds.IsNormal) (fits : bounds.Fits) {numPartitions : Nat}
    (positive : 0 < numPartitions) :
    Consecutive bounds.lowerBound bounds.upperBound
      (splitIterations numPartitions bounds) :=
  consecutive_splitFrom normal fits numPartitions _
    (atSplit_splitIterations normal positive)

theorem length_splitFrom (bounds : Bounds) (numPartitions remaining : Nat) :
    ∀ lowerBound,
      (splitFrom bounds numPartitions remaining lowerBound).length =
        remaining := by
  induction remaining with
  | zero => exact fun _ => rfl
  | succ remaining inductionHypothesis =>
      intro lowerBound
      rw [splitFrom, List.length_cons, inductionHypothesis]

section Consecutive

variable {lower upper : Nat} {parts : List Bounds}

theorem Consecutive.le (consecutive : Consecutive lower upper parts) :
    lower ≤ upper := by
  induction parts generalizing lower with
  | nil => exact le_of_eq consecutive
  | cons first rest inductionHypothesis =>
      obtain ⟨-, below, later⟩ := consecutive
      exact below.trans (inductionHypothesis later)

/-- Every part lies in the range. -/
theorem Consecutive.within (consecutive : Consecutive lower upper parts)
    {part : Bounds} (member : part ∈ parts) :
    lower ≤ part.lowerBound ∧ part.lowerBound ≤ part.upperBound ∧
      part.upperBound ≤ upper := by
  induction parts generalizing lower with
  | nil => cases member
  | cons first rest inductionHypothesis =>
      obtain ⟨starts, below, later⟩ := consecutive
      rcases List.mem_cons.mp member with rfl | inRest
      · exact ⟨le_of_eq starts.symm, starts ▸ below, later.le⟩
      · obtain ⟨above, ordered, inside⟩ := inductionHypothesis later inRest
        exact ⟨below.trans above, ordered, inside⟩

/-- Every iteration is in some part. -/
theorem Consecutive.covers (consecutive : Consecutive lower upper parts)
    {iteration : Nat} (above : lower ≤ iteration)
    (below : iteration < upper) :
    ∃ part ∈ parts,
      part.lowerBound ≤ iteration ∧ iteration < part.upperBound := by
  induction parts generalizing lower with
  | nil =>
      have equal : lower = upper := consecutive
      omega
  | cons first rest inductionHypothesis =>
      obtain ⟨starts, ordered, later⟩ := consecutive
      by_cases inside : iteration < first.upperBound
      · exact ⟨first, List.mem_cons_self, by omega, inside⟩
      · obtain ⟨part, member, within⟩ :=
          inductionHypothesis later (not_lt.mp inside)
        exact ⟨part, List.mem_cons_of_mem _ member, within⟩

/-- An earlier part ends before a later one starts. -/
theorem Consecutive.pairwise (consecutive : Consecutive lower upper parts) :
    parts.Pairwise fun first second =>
      first.upperBound ≤ second.lowerBound := by
  induction parts generalizing lower with
  | nil => exact List.Pairwise.nil
  | cons first rest inductionHypothesis =>
      obtain ⟨-, -, later⟩ := consecutive
      refine List.pairwise_cons.mpr ⟨?_, inductionHypothesis later⟩
      intro second member
      exact (later.within member).1

end Consecutive

/-! ## The order in which a collaborator visits the partitions -/

/-- The remainder that is not negative. -/
def modulus (value divisor : Int) : Int :=
  if value < 0 then (value.tmod divisor + divisor).tmod divisor
  else value.tmod divisor

/-- A sum of type `int`; an overflow has no result. -/
def intSum (first second : Int) : Option Int :=
  if -2 ^ 31 ≤ first + second ∧ first + second < 2 ^ 31 then
    some (first + second)
  else none

/-- The loop of `getPartitionPath` with the distribution function. -/
def alternatingPath (partitionCount : Nat) :
    Nat → Int → Int → Nat → Option (List Nat)
  | 0, _, _, _ => some []
  | count + 1, partition, sign, index =>
      (intSum partition (sign * index)).bind fun moved =>
        let next := modulus moved partitionCount
        (alternatingPath partitionCount count next (-sign) (index + 1)).map
          fun path => next.toNat :: path

/-- The loop without it, whose sums do not overflow. -/
def rotatingPath (partitionCount : Nat) : Nat → Nat → List Nat
  | 0, _ => []
  | count + 1, partition =>
      partition ::
        rotatingPath partitionCount count ((partition + 1) % partitionCount)

def getPartitionPath (useDistributionFunction : Bool)
    (partitionCount cpu : Nat) : Option (List Nat) :=
  let partition := cpu % partitionCount
  if useDistributionFunction then
    alternatingPath partitionCount partitionCount partition 1 0
  else some (rotatingPath partitionCount partitionCount partition)

theorem modulus_eq_emod (value : Int) {divisor : Int}
    (positive : 0 < divisor) : modulus value divisor = value % divisor := by
  unfold modulus
  split
  · rename_i negative
    have above : 0 ≤ value.tmod divisor + divisor := by
      have bound := Int.lt_tmod_of_pos value positive
      omega
    rw [Int.tmod_eq_emod_of_nonneg above, Int.add_emod_right, Int.tmod_def,
      Int.sub_mul_emod_self_left]
  · rename_i nonneg
    exact Int.tmod_eq_emod_of_nonneg (not_lt.mp nonneg)

theorem intSum_eq_some_iff {first second sum : Int} :
    intSum first second = some sum ↔
      (-2 ^ 31 ≤ first + second ∧ first + second < 2 ^ 31) ∧
        sum = first + second := by
  unfold intSum
  split
  · rename_i inside
    rw [Option.some.injEq]
    exact ⟨fun same => ⟨inside, same.symm⟩, fun parts => parts.2.symm⟩
  · rename_i outside
    exact ⟨nofun,
      fun parts => absurd parts.1 outside⟩

/-- The loop without the distribution function, in closed form. -/
theorem rotatingPath_eq {partitionCount : Nat} (count : Nat) :
    ∀ {partition : Nat}, partition < partitionCount →
      rotatingPath partitionCount count partition =
        (List.range count).map fun index =>
          (partition + index) % partitionCount := by
  induction count with
  | zero => exact fun _ => rfl
  | succ count inductionHypothesis =>
      intro partition inside
      have later := inductionHypothesis
        (Nat.mod_lt (partition + 1) (by omega : 0 < partitionCount))
      have first : (partition + 0) % partitionCount = partition :=
        Nat.mod_eq_of_lt inside
      rw [rotatingPath, later, List.range_succ_eq_map, List.map_cons,
        List.map_map, first]
      congr 1
      apply List.map_congr_left
      intro index _
      simp only [Function.comp_apply, Nat.mod_add_mod]
      congr 1
      omega

/-- The sign of an iteration of the alternating loop. -/
def alternatingSign (index : Nat) : Int :=
  if index % 2 = 0 then 1 else -1

/-- How far the alternating loop is from where it started. -/
def alternatingOffset (index : Nat) : Int :=
  if index % 2 = 0 then (index / 2 : Nat) else -((index + 1) / 2 : Nat)

theorem alternatingOffset_succ (index : Nat) :
    alternatingOffset (index + 1) -
        alternatingSign (index + 1) * (index + 1 : Nat) =
      alternatingOffset index := by
  unfold alternatingOffset alternatingSign
  by_cases even : index % 2 = 0
  · have odd : ¬ (index + 1) % 2 = 0 := by omega
    rw [if_pos even, if_neg odd, if_neg odd]
    omega
  · have next : (index + 1) % 2 = 0 := by omega
    rw [if_neg even, if_pos next, if_pos next]
    omega

/-- What an iteration of the alternating loop adds up. -/
def alternatingSum (partitionCount start : Nat) (index : Nat) : Int :=
  (start + (alternatingOffset index - alternatingSign index * index)) %
      partitionCount +
    alternatingSign index * index

/-- The alternating loop in closed form: it has a result when none of its sums
overflows. -/
theorem alternatingPath_eq_some_iff {partitionCount : Nat}
    (positive : 0 < partitionCount) (start : Nat) (count : Nat) :
    ∀ (index : Nat) (path : List Nat),
      alternatingPath partitionCount count
          ((start + (alternatingOffset index -
            alternatingSign index * index)) % partitionCount)
          (alternatingSign index) index = some path ↔
        (∀ later, index ≤ later → later < index + count →
          -2 ^ 31 ≤ alternatingSum partitionCount start later ∧
            alternatingSum partitionCount start later < 2 ^ 31) ∧
          path = (List.range' index count).map fun later =>
            ((start + alternatingOffset later) % partitionCount).toNat := by
  induction count with
  | zero =>
      intro index path
      have vacuous : ∀ later, index ≤ later → later < index + 0 →
          -2 ^ 31 ≤ alternatingSum partitionCount start later ∧
            alternatingSum partitionCount start later < 2 ^ 31 := by
        intro later above below
        omega
      rw [alternatingPath, Option.some.injEq, List.range'_zero, List.map_nil]
      exact ⟨fun same => ⟨vacuous, same.symm⟩, fun parts => parts.2.symm⟩
  | succ count inductionHypothesis =>
      intro index path
      have sign : -alternatingSign index = alternatingSign (index + 1) := by
        unfold alternatingSign
        split <;> split <;> omega
      have next : modulus (alternatingSum partitionCount start index)
          partitionCount =
            (start + alternatingOffset index) % partitionCount := by
        rw [modulus_eq_emod _ (by exact_mod_cast positive), alternatingSum,
          Int.emod_add_emod]
        congr 1
        ring
      have later := inductionHypothesis (index + 1)
      rw [alternatingOffset_succ] at later
      rw [alternatingPath, Option.bind_eq_some_iff, List.range'_succ,
        List.map_cons]
      constructor
      · rintro ⟨moved, summed, followed⟩
        obtain ⟨inside, rfl⟩ := intSum_eq_some_iff.mp summed
        obtain ⟨rest, found, rfl⟩ := Option.map_eq_some_iff.mp followed
        change modulus (alternatingSum partitionCount start index) _ = _
          at next
        unfold alternatingSum at next
        rw [next, sign] at found
        obtain ⟨others, rfl⟩ := (later rest).mp found
        refine ⟨?_, by rw [next]⟩
        intro other above below
        by_cases here : other = index
        · rw [here]
          exact inside
        · exact others other (by omega) (by omega)
      · rintro ⟨inside, rfl⟩
        refine ⟨alternatingSum partitionCount start index,
          intSum_eq_some_iff.mpr ⟨inside index le_rfl (by omega), rfl⟩, ?_⟩
        dsimp only
        rw [next, sign, Option.map_eq_some_iff]
        refine ⟨_, (later _).mpr ⟨?_, rfl⟩, rfl⟩
        intro other above below
        exact inside other (by omega) (by omega)

/-- The largest sum of the alternating loop is that of its last iteration
forward. -/
theorem alternatingSum_fits_iff {partitionCount start : Nat}
    (started : start < partitionCount) (fits : partitionCount < 2 ^ 31) :
    (∀ later, later < partitionCount →
      -2 ^ 31 ≤ alternatingSum partitionCount start later ∧
        alternatingSum partitionCount start later < 2 ^ 31) ↔
      start + (partitionCount - 1) / 2 +
        (if start < (partitionCount - 1) / 2 then partitionCount else 0) <
          2 ^ 31 := by
  have forward : ∀ half, half < partitionCount →
      alternatingSum partitionCount start (2 * half) =
        start + half + if start < half then (partitionCount : Int) else 0 := by
    intro half inside
    have offset : alternatingOffset (2 * half) -
        alternatingSign (2 * half) * (2 * half : Nat) = -(half : Int) := by
      unfold alternatingOffset alternatingSign
      rw [if_pos (by omega), if_pos (by omega)]
      omega
    have added : alternatingSign (2 * half) * (2 * half : Nat) =
        2 * (half : Int) := by
      unfold alternatingSign
      rw [if_pos (by omega)]
      omega
    rw [alternatingSum, offset, added]
    split
    · rw [← Int.add_emod_right, Int.emod_eq_of_lt (by omega) (by omega)]
      omega
    · rw [Int.emod_eq_of_lt (by omega) (by omega)]
      omega
  constructor
  · intro inside
    have last := (inside (2 * ((partitionCount - 1) / 2)) (by omega)).2
    rw [forward _ (by omega)] at last
    split at last <;> split <;> omega
  · intro bound later below
    by_cases even : later % 2 = 0
    · obtain ⟨half, rfl⟩ : ∃ half, later = 2 * half := ⟨later / 2, by omega⟩
      rw [forward half (by omega)]
      split at bound <;> split <;> omega
    · -- The loop goes backward, and the sum is within the partitions.
      have sign : alternatingSign later * (later : Int) = -(later : Int) := by
        unfold alternatingSign
        rw [if_neg even]
        omega
      have lower := Int.emod_nonneg
        ((start : Int) + (alternatingOffset later -
          alternatingSign later * later))
        (by omega : (partitionCount : Int) ≠ 0)
      have upper := Int.emod_lt_of_pos
        ((start : Int) + (alternatingOffset later -
          alternatingSign later * later))
        (by omega : (0 : Int) < partitionCount)
      unfold alternatingSum
      omega

/-- A partition is reached after at most half of the others in one of the two
directions. -/
theorem exists_alternatingOffset {partitionCount start partition : Nat}
    (started : start < partitionCount) (inside : partition < partitionCount) :
    ∃ index < partitionCount, ∃ multiple : Int,
      (start : Int) + alternatingOffset index =
        partition + multiple * partitionCount := by
  obtain ⟨distance, near, multiple, equal⟩ :
      ∃ distance < partitionCount, ∃ multiple : Int,
        (start : Int) + distance = partition + multiple * partitionCount := by
    by_cases after : start ≤ partition
    · exact ⟨partition - start, by omega, 0, by omega⟩
    · exact ⟨partition + partitionCount - start, by omega, 1, by omega⟩
  by_cases forward : 2 * distance < partitionCount
  · refine ⟨2 * distance, forward, multiple, ?_⟩
    have offset : alternatingOffset (2 * distance) = distance := by
      unfold alternatingOffset
      rw [if_pos (by omega)]
      omega
    rw [offset, equal]
  · refine ⟨2 * (partitionCount - distance) - 1, by omega, multiple - 1, ?_⟩
    have offset : alternatingOffset (2 * (partitionCount - distance) - 1) =
        (distance : Int) - partitionCount := by
      unfold alternatingOffset
      rw [if_neg (by omega)]
      omega
    rw [offset]
    have shifted : (multiple - 1) * (partitionCount : Int) =
        multiple * partitionCount - partitionCount := by
      ring
    omega

/-- The partition at every position of the path. -/
def visitedAt (useDistributionFunction : Bool) (partitionCount start : Nat)
    (index : Nat) : Nat :=
  if useDistributionFunction then
    (((start : Int) + alternatingOffset index) % partitionCount).toNat
  else (start + index) % partitionCount

/-- The path in closed form.  The loop with the distribution function has a
result up to a bound on the number of partitions; the other one always has. -/
theorem getPartitionPath_eq_some_iff {useDistributionFunction : Bool}
    {partitionCount : Nat}
    (counted : 0 < partitionCount ∧ partitionCount < 2 ^ 31) (cpu : Nat)
    {path : List Nat} :
    getPartitionPath useDistributionFunction partitionCount cpu = some path ↔
      (useDistributionFunction = true →
        cpu % partitionCount + (partitionCount - 1) / 2 +
          (if cpu % partitionCount < (partitionCount - 1) / 2 then
            partitionCount
          else 0) < 2 ^ 31) ∧
        path = (List.range partitionCount).map
          (visitedAt useDistributionFunction partitionCount
            (cpu % partitionCount)) := by
  have started := Nat.mod_lt cpu counted.1
  unfold getPartitionPath
  dsimp only
  generalize cpu % partitionCount = start at started
  cases useDistributionFunction with
  | true =>
      have closed := alternatingPath_eq_some_iff counted.1 start
        partitionCount 0 path
      have first : ((start : Int) + (alternatingOffset 0 -
          alternatingSign 0 * (0 : Nat))) % partitionCount = start := by
        have nothing : alternatingOffset 0 - alternatingSign 0 * (0 : Nat) =
            0 := by
          decide
        rw [nothing, add_zero]
        exact Int.emod_eq_of_lt (by omega) (by omega)
      rw [first, ← List.range_eq_range'] at closed
      rw [if_pos rfl, ← alternatingSum_fits_iff started counted.2]
      refine closed.trans ?_
      have same : visitedAt true partitionCount start = fun later =>
          ((start + alternatingOffset later) % partitionCount).toNat := rfl
      rw [same]
      simp
  | false =>
      rw [if_neg Bool.false_ne_true, Option.some.injEq,
        rotatingPath_eq partitionCount started]
      have same : visitedAt false partitionCount start = fun index =>
          (start + index) % partitionCount := rfl
      rw [same]
      simp [eq_comm]

/-- Every partition is at some position of the path. -/
theorem exists_visitedAt (useDistributionFunction : Bool)
    {partitionCount start partition : Nat} (started : start < partitionCount)
    (inside : partition < partitionCount) :
    ∃ index < partitionCount,
      visitedAt useDistributionFunction partitionCount start index =
        partition := by
  cases useDistributionFunction with
  | true =>
      obtain ⟨index, below, multiple, equal⟩ :=
        exists_alternatingOffset started inside
      refine ⟨index, below, ?_⟩
      rw [visitedAt, if_pos rfl, equal, Int.add_mul_emod_self_right,
        Int.emod_eq_of_lt (by omega) (by omega), Int.toNat_natCast]
  | false =>
      by_cases after : start ≤ partition
      · refine ⟨partition - start, by omega, ?_⟩
        rw [visitedAt, if_neg Bool.false_ne_true, Nat.add_sub_cancel' after,
          Nat.mod_eq_of_lt inside]
      · refine ⟨partition + partitionCount - start, by omega, ?_⟩
        rw [visitedAt, if_neg Bool.false_ne_true,
          Nat.add_sub_cancel' (by omega), Nat.add_mod_right,
          Nat.mod_eq_of_lt inside]

/-- A collaborator has every partition on its path. -/
theorem mem_getPartitionPath {useDistributionFunction : Bool}
    {partitionCount : Nat} (fits : partitionCount < 2 ^ 31) {cpu : Nat}
    {path : List Nat}
    (found : getPartitionPath useDistributionFunction partitionCount cpu =
      some path)
    {partition : Nat} (inside : partition < partitionCount) :
    partition ∈ path := by
  have counted : 0 < partitionCount ∧ partitionCount < 2 ^ 31 :=
    ⟨by omega, fits⟩
  obtain ⟨-, rfl⟩ := (getPartitionPath_eq_some_iff counted cpu).mp found
  obtain ⟨index, below, visited⟩ := exists_visitedAt useDistributionFunction
    (Nat.mod_lt cpu counted.1) inside
  exact List.mem_map.mpr ⟨index, List.mem_range.mpr below, visited⟩

/-- A collaborator starts at the partition of its CPU and visits every partition
exactly once. -/
structure VisitsOnce (path : List Nat) (partitionCount cpu : Nat) :
    Prop where
  length : path.length = partitionCount
  starts : path[0]? = some (cpu % partitionCount)
  once : path.Perm (List.range partitionCount)
  visits : ∀ partition < partitionCount,
    ∃ visited < partitionCount, path[visited]? = some partition

/-- As many partitions are visited as there are, so none can be visited
twice. -/
theorem visitsOnce_map_visitedAt (useDistributionFunction : Bool)
    {partitionCount : Nat} (positive : 0 < partitionCount) (cpu : Nat) :
    VisitsOnce
      ((List.range partitionCount).map
        (visitedAt useDistributionFunction partitionCount
          (cpu % partitionCount)))
      partitionCount cpu := by
  have started := Nat.mod_lt cpu positive
  refine ⟨by rw [List.length_map, List.length_range], ?_, ?_, ?_⟩
  · have first : visitedAt useDistributionFunction partitionCount
        (cpu % partitionCount) 0 = cpu % partitionCount := by
      cases useDistributionFunction with
      | true =>
          have nothing : alternatingOffset 0 = 0 := by decide
          rw [visitedAt, if_pos rfl, nothing, add_zero,
            Int.emod_eq_of_lt (by omega) (by omega), Int.toNat_natCast]
      | false =>
          rw [visitedAt, if_neg Bool.false_ne_true, Nat.add_zero,
            Nat.mod_eq_of_lt started]
    rw [List.getElem?_map, List.getElem?_range positive, Option.map_some,
      first]
  · have all : List.range partitionCount ⊆ (List.range partitionCount).map
        (visitedAt useDistributionFunction partitionCount
          (cpu % partitionCount)) := by
      intro partition member
      obtain ⟨index, below, visited⟩ := exists_visitedAt
        useDistributionFunction started (List.mem_range.mp member)
      exact List.mem_map.mpr ⟨index, List.mem_range.mpr below, visited⟩
    have contained := List.subperm_of_subset List.nodup_range all
    refine (contained.perm_of_length_le ?_).symm
    rw [List.length_map]
  · intro partition inside
    obtain ⟨index, below, visited⟩ := exists_visitedAt useDistributionFunction
      started inside
    refine ⟨index, below, ?_⟩
    rw [List.getElem?_map, List.getElem?_range below, Option.map_some, visited]

/-- The sums of the alternating loop must not overflow, which they cannot with
at most `2 ^ 30` partitions. -/
theorem visitsOnce_getPartitionPath_iff (useDistributionFunction : Bool)
    {partitionCount : Nat}
    (counted : 0 < partitionCount ∧ partitionCount < 2 ^ 31) (cpu : Nat) :
    (∃ path,
      getPartitionPath useDistributionFunction partitionCount cpu =
        some path ∧
      VisitsOnce path partitionCount cpu) ↔
      (useDistributionFunction = true →
        cpu % partitionCount + (partitionCount - 1) / 2 +
          (if cpu % partitionCount < (partitionCount - 1) / 2 then
            partitionCount
          else 0) < 2 ^ 31) := by
  constructor
  · rintro ⟨path, found, -⟩
    exact ((getPartitionPath_eq_some_iff counted cpu).mp found).1
  · intro fits
    exact ⟨_, (getPartitionPath_eq_some_iff counted cpu).mpr ⟨fits, rfl⟩,
      visitsOnce_map_visitedAt useDistributionFunction counted.1 cpu⟩

theorem visitsOnce_five_partitions :
    getPartitionPath true 5 7 = some [2, 1, 3, 0, 4] ∧
      ∃ path, getPartitionPath true 5 7 = some path ∧ VisitsOnce path 5 7 :=
  ⟨by decide,
    (visitsOnce_getPartitionPath_iff true (by decide) 7).mpr
      fun _ => by decide⟩

/-- The last of as many CPUs as the type can count. -/
theorem visitsOnce_fails_overflow :
    ¬ ∃ path,
      getPartitionPath true (2 ^ 31 - 1) (2 ^ 31 - 2) = some path ∧
        VisitsOnce path (2 ^ 31 - 1) (2 ^ 31 - 2) := by
  rintro ⟨path, found, -⟩
  have fits := ((getPartitionPath_eq_some_iff (by decide) _).mp found).1 rfl
  exact absurd fits (by decide)

end Nanos6.Taskloop
