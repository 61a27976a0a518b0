import Nanos6.Taskloops.Partitions

/-!
# The law of `splitIterations`

The partitions follow one another, hold whole chunks and differ by at most one
chunk, as long as the last chunk, filled up, ends within `size_t`.  The upper
bound of the last partition is the minimum of its end in whole chunks and of the
upper bound of the loop; the former is a sum of type `size_t`, which wraps
before the minimum is taken.
-/

namespace Nanos6.Taskloop

/-- The number of chunks of a partition; the last one may be partial. -/
def Bounds.chunks (part : Bounds) : Nat :=
  (part.upperBound - part.lowerBound + (part.chunksize - 1)) / part.chunksize

/-- What the partitions of a loop have to be. -/
structure SplitsIterations (bounds : Bounds) (parts : List Bounds) :
    Prop where
  consecutive : Consecutive bounds.lowerBound bounds.upperBound parts
  /-- A partition before another one that is not empty is a whole number of
  chunks. -/
  whole : parts.Pairwise fun first second =>
    second.lowerBound < second.upperBound →
      bounds.chunksize ∣ first.upperBound - first.lowerBound
  balanced : ∀ first ∈ parts, ∀ second ∈ parts,
    first.chunks ≤ second.chunks + 1

/-- The end of the last chunk, when it is filled up. -/
def Bounds.chunksEnd (bounds : Bounds) : Nat :=
  bounds.lowerBound +
    (bounds.upperBound - bounds.lowerBound + (bounds.chunksize - 1)) /
      bounds.chunksize * bounds.chunksize

/-- A length between two numbers of chunks. -/
theorem ceil_eq {length chunksize count : Nat} (positive : 0 < chunksize)
    (most : length ≤ count * chunksize)
    (least : count = 0 ∨ count * chunksize < length + chunksize) :
    (length + (chunksize - 1)) / chunksize = count := by
  apply Nat.div_eq_of_lt_le
  · rcases least with rfl | above
    · rw [Nat.zero_mul]
      exact Nat.zero_le _
    · omega
  · rw [Nat.succ_mul]
    omega

variable {bounds : Bounds}

theorem Bounds.totalChunks_eq_ceil (normal : bounds.IsNormal) :
    (bounds.upperBound - bounds.lowerBound + (bounds.chunksize - 1)) /
      bounds.chunksize = bounds.totalChunks := by
  have ordered := normal.ordered
  obtain ⟨covers, needed⟩ := Bounds.totalChunks_bounds normal
  apply ceil_eq normal.positive
  · omega
  · rcases needed with nothing | below
    · exact Or.inl nothing
    · exact Or.inr (by omega)

theorem Bounds.fits_iff (normal : bounds.IsNormal) :
    bounds.Fits ↔ bounds.chunksEnd < sizeLimit := by
  unfold Bounds.Fits Bounds.chunksEnd
  rw [Bounds.totalChunks_eq_ceil normal]

/-! ### One iteration of the loop -/

/-- The sum of an iteration does not wrap if chunks are left after it. -/
theorem AtSplit.sum (normal : bounds.IsNormal) {left mine lowerBound : Nat}
    (position : AtSplit bounds (left + mine) lowerBound)
    (more : 0 < left) :
    sizeAdd lowerBound (sizeMul mine bounds.chunksize) =
        lowerBound + mine * bounds.chunksize ∧
      lowerBound + mine * bounds.chunksize < bounds.upperBound := by
  have limit := normal.fits
  obtain ⟨-, needed⟩ := Bounds.totalChunks_bounds normal
  rcases position with ⟨none, -⟩ | ⟨-, bound, before⟩
  · omega
  · rw [Nat.add_mul] at before
    have chunk : bounds.chunksize ≤ left * bounds.chunksize :=
      Nat.le_mul_of_pos_left _ more
    have below : lowerBound + mine * bounds.chunksize <
        bounds.upperBound := by
      rcases needed with nothing | below
      · omega
      · omega
    have product : sizeMul mine bounds.chunksize =
        mine * bounds.chunksize :=
      sizeMul_of_lt (by omega)
    rw [product, sizeAdd_of_lt (by omega)]
    exact ⟨rfl, below⟩

/-- The partition of an iteration has the chunks that it was given, and only
the last ones can be less than whole. -/
theorem AtSplit.length (normal : bounds.IsNormal) (fits : bounds.Fits)
    {left mine lowerBound : Nat}
    (position : AtSplit bounds (left + mine) lowerBound) :
    let upperBound :=
      min (sizeAdd lowerBound (sizeMul mine bounds.chunksize))
        bounds.upperBound
    (left = 0 ∨ upperBound = lowerBound + mine * bounds.chunksize) ∧
      upperBound ≤ lowerBound + mine * bounds.chunksize ∧
      (mine = 0 ∨
        lowerBound + mine * bounds.chunksize <
          upperBound + bounds.chunksize) := by
  intro upperBound
  have positive := normal.positive
  by_cases more : 0 < left
  · obtain ⟨sum, below⟩ := position.sum normal more
    have exact : upperBound = lowerBound + mine * bounds.chunksize := by
      change min _ _ = _
      rw [sum, Nat.min_eq_left below.le]
    exact ⟨Or.inr exact, exact.le, Or.inr (by omega)⟩
  · have done : left = 0 := by omega
    subst done
    refine ⟨Or.inl rfl, ?_⟩
    obtain ⟨covers, needed⟩ := Bounds.totalChunks_bounds normal
    have stops : upperBound = bounds.upperBound := by
      rcases (position.next normal fits).2 with ⟨-, atEnd⟩ | ⟨some, -⟩
      · exact atEnd
      · exact absurd some (lt_irrefl 0)
    rw [stops]
    rcases position with ⟨none, rfl⟩ | ⟨-, -, before⟩
    · exact ⟨Nat.le_add_right _ _, Or.inl (by omega)⟩
    · rw [Nat.zero_add] at before
      refine ⟨by omega, Or.inr ?_⟩
      rcases needed with nothing | below
      · rw [nothing, Nat.zero_mul] at before
        have ordered := normal.ordered
        omega
      · omega

/-! ### The whole loop -/

theorem balanced_splitFrom (normal : bounds.IsNormal) (fits : bounds.Fits)
    {numPartitions : Nat} (remaining : Nat) :
    ∀ lowerBound,
      AtSplit bounds (chunksLeft bounds numPartitions remaining) lowerBound →
      ∀ part ∈ splitFrom bounds numPartitions remaining lowerBound,
        bounds.totalChunks / numPartitions ≤ part.chunks ∧
          part.chunks ≤ bounds.totalChunks / numPartitions + 1 := by
  induction remaining with
  | zero =>
      intro lowerBound _ part member
      cases member
  | succ remaining inductionHypothesis =>
      intro lowerBound position part member
      have noWrap := noWrap_chunks position
      rw [chunksLeft_succ] at position
      rw [splitFrom, noWrap] at member
      rcases List.mem_cons.mp member with rfl | inRest
      · obtain ⟨-, most, least⟩ := position.length normal fits
        have below := (position.next normal fits).1
        have count := ceil_eq normal.positive
          (Nat.sub_le_iff_le_add'.mpr most)
          (least.imp_right fun above => by omega)
        have extra := Bool.toNat_le (decide (remaining + 1 ≤
          bounds.totalChunks % numPartitions))
        change _ ≤ (_ + (bounds.chunksize - 1)) / bounds.chunksize ∧
          (_ + (bounds.chunksize - 1)) / bounds.chunksize ≤ _
        rw [count]
        omega
      · exact inductionHypothesis _ (position.next normal fits).2 part inRest

theorem whole_splitFrom (normal : bounds.IsNormal) (fits : bounds.Fits)
    {numPartitions : Nat} (remaining : Nat) :
    ∀ lowerBound,
      AtSplit bounds (chunksLeft bounds numPartitions remaining) lowerBound →
      (splitFrom bounds numPartitions remaining lowerBound).Pairwise
        fun first second => second.lowerBound < second.upperBound →
          bounds.chunksize ∣ first.upperBound - first.lowerBound := by
  induction remaining with
  | zero =>
      intro lowerBound _
      exact List.Pairwise.nil
  | succ remaining inductionHypothesis =>
      intro lowerBound position
      have noWrap := noWrap_chunks position
      rw [chunksLeft_succ] at position
      have later := (position.next normal fits).2
      rw [splitFrom, noWrap]
      refine List.pairwise_cons.mpr ⟨?_, inductionHypothesis _ later⟩
      intro second member nonempty
      rcases (position.length normal fits).1 with done | exact
      · -- Nothing is left, so the later partitions are empty.
        have atEnd := later
        rw [done] at atEnd
        rcases atEnd with ⟨-, stops⟩ | ⟨some, -⟩
        · have within :=
            (consecutive_splitFrom normal fits remaining _ later).within
              member
          omega
        · exact absurd some (lt_irrefl 0)
      · dsimp only
        rw [exact, Nat.add_sub_cancel_left]
        exact Nat.dvd_mul_left _ _

/-- Chunks are left as long as partitions are. -/
theorem chunksLeft_pos (some : 0 < bounds.totalChunks)
    (numPartitions remaining : Nat) :
    0 < chunksLeft bounds numPartitions (remaining + 1) := by
  have parts := Nat.div_add_mod bounds.totalChunks numPartitions
  unfold chunksLeft
  by_cases none : bounds.totalChunks / numPartitions = 0
  · rw [none, Nat.mul_zero] at parts
    omega
  · have several : 0 < bounds.totalChunks / numPartitions * (remaining + 1) :=
      Nat.mul_pos (Nat.pos_of_ne_zero none) (Nat.succ_pos remaining)
    omega

/-- The last partition ends at the upper bound only if its sum does not wrap. -/
theorem fits_of_consecutive (normal : bounds.IsNormal)
    (size : bounds.chunksize < sizeLimit) (some : 0 < bounds.totalChunks)
    {numPartitions : Nat} (remaining : Nat) :
    ∀ lowerBound,
      AtSplit bounds (chunksLeft bounds numPartitions (remaining + 1))
        lowerBound →
      Consecutive lowerBound bounds.upperBound
        (splitFrom bounds numPartitions (remaining + 1) lowerBound) →
      bounds.Fits := by
  obtain ⟨-, needed⟩ := Bounds.totalChunks_bounds normal
  induction remaining with
  | zero =>
      intro lowerBound position consecutive
      have left := chunksLeft_pos some numPartitions 0
      rw [splitFrom, noWrap_chunks position] at consecutive
      have mine := chunksLeft_succ bounds numPartitions 0
      have nothing : chunksLeft bounds numPartitions 0 = 0 := by
        simp [chunksLeft]
      rw [nothing, Nat.zero_add (bounds.totalChunks / numPartitions + _)]
        at mine
      rw [← mine] at consecutive
      obtain ⟨-, -, ends⟩ := consecutive
      have reached : min _ _ = bounds.upperBound := ends
      rcases position with ⟨none, -⟩ | ⟨-, -, before⟩
      · omega
      · by_contra wraps
        unfold Bounds.Fits at wraps
        have sum : sizeAdd lowerBound (sizeMul
            (chunksLeft bounds numPartitions 1) bounds.chunksize) =
            (bounds.lowerBound + bounds.totalChunks * bounds.chunksize) %
              sizeLimit := by
          rw [sizeAdd, sizeMul, Nat.add_mod_mod, before]
        rw [sum] at reached
        have fits := normal.fits
        rw [Nat.mod_eq_sub_mod (not_lt.mp wraps),
          Nat.mod_eq_of_lt (by omega)] at reached
        omega
  | succ remaining inductionHypothesis =>
      intro lowerBound position consecutive
      have noWrap := noWrap_chunks position
      have more := chunksLeft_pos some numPartitions remaining
      rw [splitFrom, noWrap] at consecutive
      rw [chunksLeft_succ] at position
      obtain ⟨-, -, later⟩ := consecutive
      obtain ⟨sum, below⟩ := position.sum normal more
      refine inductionHypothesis _ ?_ later
      dsimp only
      rw [sum, Nat.min_eq_left below.le]
      rcases position with ⟨none, -⟩ | ⟨-, bound, before⟩
      · omega
      · rw [Nat.add_mul] at before
        exact Or.inr ⟨more, by omega, by omega⟩

theorem splitsIterations_iff (normal : bounds.IsNormal)
    (size : bounds.chunksize < sizeLimit) {numPartitions : Nat}
    (positive : 0 < numPartitions) :
    SplitsIterations bounds (splitIterations numPartitions bounds) ↔
      bounds.chunksEnd < sizeLimit := by
  have position := atSplit_splitIterations normal positive
  rw [← Bounds.fits_iff normal]
  constructor
  · intro splits
    by_cases nothing : bounds.totalChunks = 0
    · have fits := normal.fits
      have ordered := normal.ordered
      unfold Bounds.Fits
      rw [nothing, Nat.zero_mul]
      omega
    · obtain ⟨remaining, rfl⟩ := Nat.exists_eq_add_one.mpr positive
      exact fits_of_consecutive normal size (Nat.pos_of_ne_zero nothing)
        remaining _ position splits.consecutive
  · intro fits
    refine
      { consecutive := consecutive_splitIterations normal fits positive
        whole := whole_splitFrom normal fits numPartitions _ position
        balanced := ?_ }
    intro first firstMember second secondMember
    have balanced := balanced_splitFrom normal fits numPartitions _ position
    have most := (balanced first firstMember).2
    have least := (balanced second secondMember).1
    omega

/-- Ten iterations in chunks of three. -/
theorem splitsIterations_ten :
    SplitsIterations ⟨0, 10, 1, 3⟩ (splitIterations 3 ⟨0, 10, 1, 3⟩) :=
  (splitsIterations_iff
    { ordered := by decide
      fits := by decide
      step := rfl
      positive := by decide } (by decide) (by decide)).mpr (by decide)

/-- Two iterations that end at the largest value of type `size_t`, in one chunk
of four. -/
theorem splitsIterations_fails :
    ¬ ∀ numPartitions bounds, 0 < numPartitions → bounds.IsNormal →
      bounds.chunksize < sizeLimit →
        SplitsIterations bounds (splitIterations numPartitions bounds) := by
  intro splits
  have normal : Bounds.IsNormal
      ⟨sizeLimit - 3, sizeLimit - 1, 1, 4⟩ :=
    { ordered := by decide
      fits := by decide
      step := rfl
      positive := by decide }
  have wrapped : splitIterations 1 ⟨sizeLimit - 3, sizeLimit - 1, 1, 4⟩ =
      [⟨sizeLimit - 3, 1, 1, 4⟩] := by decide
  have consecutive := (splits 1 _ (by decide) normal (by decide)).consecutive
  rw [wrapped] at consecutive
  exact absurd consecutive.2.1 (by decide)

end Nanos6.Taskloop
