import Nanos6.Memory.PoolAllocator

/-!
# The chunks of the pool allocator are disjoint

Every byte that the system has returned belongs to at most one of: the rest of the
current range of a global pool, a free chunk of a pool, and a chunk in use.  The
operations of the allocator pass bytes from one to the next.  That a global pool
has a chunk to cut off, whatever the sizes of the requests, follows from the size
of its chunks being at most that of its ranges.
-/

namespace Nanos6.PoolAllocator

open Foundation

/-! ## Rounding -/

theorem roundUp_eq {value multiple : Nat} (positive : 0 < value + multiple)
    (fits : value + multiple ≤ sizeLimit) :
    roundUp value multiple =
      (value + multiple - 1) / multiple * multiple := by
  have wrapped : (value + multiple + (sizeLimit - 1)) % sizeLimit =
      value + multiple - 1 := by
    have split : value + multiple + (sizeLimit - 1) =
        (value + multiple - 1) + sizeLimit := by
      have limit : 0 < sizeLimit := by decide
      omega
    rw [split, Nat.add_mod_right, Nat.mod_eq_of_lt (by omega)]
  rw [roundUp, wrapped]

theorem dvd_roundUp (value multiple : Nat) :
    multiple ∣ roundUp value multiple :=
  Dvd.intro_left _ rfl

theorem multiple_le_roundUp {value multiple : Nat} (positive : 0 < value)
    (isMultiple : 0 < multiple) (fits : value + multiple ≤ sizeLimit) :
    multiple ≤ roundUp value multiple := by
  rw [roundUp_eq (by omega) fits]
  have one : 1 ≤ (value + multiple - 1) / multiple :=
    (Nat.one_le_div_iff isMultiple).mpr (by omega)
  calc multiple = 1 * multiple := (Nat.one_mul _).symm
    _ ≤ (value + multiple - 1) / multiple * multiple :=
        Nat.mul_le_mul_right _ one

theorem roundUp_lt (value multiple : Nat) :
    roundUp value multiple < sizeLimit := by
  refine lt_of_le_of_lt (Nat.div_mul_le_self _ _) ?_
  exact Nat.mod_lt _ (by decide)

/-! ## The global pools -/

namespace GlobalPool

/-- What is left of the current range. -/
def rest (pool : GlobalPool) : Range :=
  ⟨pool.curMemoryChunk, pool.curAvailable⟩

/-- The sizes fit together, and what is left is the end of the current range. -/
structure IsSound (pool : GlobalPool) : Prop where
  fits : pool.memoryChunkSize ≤ pool.globalAllocSize
  positive : 0 < pool.globalAllocSize
  bound : pool.globalAllocSize < sizeLimit
  available : pool.curAvailable ≤ pool.globalAllocSize
  current : ∃ range, pool.oldMemoryChunks.getLast? = some range ∧
    0 < range.base ∧ range.limit < sizeLimit ∧ pool.rest.limit = range.limit ∧
    pool.rest.IsWithin range

/-- The pool has got fresh memory, or is as it was. -/
structure Extends (config : Config) (others : List Range)
    (pool after : GlobalPool) : Prop where
  accounted : ∀ byte,
    after.rest.covers byte + coverage pool.oldMemoryChunks byte ≤
      pool.rest.covers byte + coverage after.oldMemoryChunks byte
  apart : (∀ byte,
      coverage others byte + coverage pool.oldMemoryChunks byte ≤ 1) →
    ∀ byte, coverage others byte + coverage after.oldMemoryChunks byte ≤ 1
  kept : ∀ range ∈ pool.oldMemoryChunks, range ∈ after.oldMemoryChunks
  aligned : config.cacheLineSize ∣ pool.curMemoryChunk →
    config.cacheLineSize ∣ after.curMemoryChunk

variable {config : Config} {others : List Range} {pool after : GlobalPool}

theorem Extends.of_same (memory : after.rest = pool.rest)
    (same : after.oldMemoryChunks = pool.oldMemoryChunks) :
    Extends config others pool after where
  accounted := by
    intro byte
    rw [memory, same]
  apart := by
    rw [same]
    exact id
  kept := by
    rw [same]
    exact fun _ => id
  aligned := by
    have address : after.curMemoryChunk = pool.curMemoryChunk :=
      congrArg Range.base memory
    rw [address]
    exact id

theorem Extends.trans {last : GlobalPool}
    (first : Extends config others pool after)
    (second : Extends config others after last) :
    Extends config others pool last where
  accounted := by
    intro byte
    have one := first.accounted byte
    have two := second.accounted byte
    omega
  apart := fun once => second.apart (first.apart once)
  kept := fun range member => second.kept range (first.kept range member)
  aligned := fun aligned => second.aligned (first.aligned aligned)

/-- A new range becomes the current one. -/
theorem fillPool_spec {base : Nat}
    (filled : pool.fillPool config others base = some after)
    (fits : pool.memoryChunkSize ≤ pool.globalAllocSize)
    (positive : 0 < pool.globalAllocSize)
    (bound : pool.globalAllocSize < sizeLimit) :
    after.IsSound ∧ Extends config others pool after ∧
      after.memoryChunkSize = pool.memoryChunkSize ∧
      after.memoryChunkSize ≤ after.curAvailable := by
  unfold fillPool at filled
  simp only at filled
  split at filled
  · rename_i fresh
    cases filled
    simp only [isFresh, Bool.and_eq_true, beq_iff_eq, decide_eq_true_eq,
      List.all_eq_true] at fresh
    obtain ⟨⟨⟨page, nonzero⟩, inside⟩, apart⟩ := fresh
    refine ⟨⟨fits, positive, bound, le_rfl, ?_⟩, ⟨?_, ?_, ?_, ?_⟩, rfl,
      fits⟩
    · exact ⟨_, List.getLast?_concat .., nonzero, inside, rfl, le_rfl,
        le_rfl⟩
    · intro byte
      rw [coverage_append, coverage_cons, coverage_nil]
      change Range.covers ⟨base, pool.globalAllocSize⟩ byte + _ ≤ _
      omega
    · intro once byte
      have before := once byte
      rw [coverage_append, coverage_cons, coverage_nil]
      by_cases contains :
          Range.Contains ⟨base, pool.globalAllocSize⟩ byte
      · have nothing := coverage_eq_zero apart contains
        rw [coverage_append] at nothing
        rw [Range.covers_of_contains contains]
        omega
      · rw [Range.covers_of_not_contains contains]
        omega
    · exact fun range member => List.mem_append_left _ member
    · intro _
      exact config.pages.trans (Nat.dvd_of_mod_eq_zero page)
  · cases filled

/-- The size of the ranges is rounded up before. -/
theorem fillPool_fitAllocSize_spec {base : Nat}
    (filled : pool.fitAllocSize.fillPool config others base = some after)
    (positive : 0 < pool.globalAllocSize)
    (isChunk : 0 < pool.memoryChunkSize)
    (fits : pool.globalAllocSize + pool.memoryChunkSize ≤ sizeLimit) :
    after.IsSound ∧ Extends config others pool after ∧
      after.memoryChunkSize = pool.memoryChunkSize ∧
      after.memoryChunkSize ≤ after.curAvailable := by
  have enough := multiple_le_roundUp positive isChunk fits
  obtain ⟨isSound, grown, size, available⟩ :=
    fillPool_spec filled enough (lt_of_lt_of_le isChunk enough)
      (roundUp_lt _ _)
  have same : Extends config others pool pool.fitAllocSize :=
    .of_same rfl rfl
  exact ⟨isSound, same.trans grown, size, available⟩

theorem ensureChunk_spec {base : Nat} (sound : pool.IsSound)
    (permitted : pool.curAvailable < pool.memoryChunkSize →
      pool.curAvailable ≠ 0 → pool.canFit = true)
    (ensured : pool.ensureChunk config others base = some after) :
    after.IsSound ∧ Extends config others pool after ∧
      after.memoryChunkSize = pool.memoryChunkSize ∧
      after.memoryChunkSize ≤ after.curAvailable := by
  unfold ensureChunk at ensured
  split at ensured
  · rename_i short
    split at ensured
    · rename_i some
      exact fillPool_fitAllocSize_spec ensured sound.positive
        (Nat.zero_lt_of_lt short) (of_decide_eq_true (permitted short some))
    · exact fillPool_spec ensured sound.fits sound.positive sound.bound
  · rename_i enough
    cases ensured
    exact ⟨sound, .of_same rfl rfl, rfl, not_lt.mp enough⟩

theorem raiseChunkSize_spec {minSize base : Nat} (sound : pool.IsSound)
    (enough : pool.memoryChunkSize ≤ pool.curAvailable)
    (permitted : pool.memoryChunkSize < minSize →
      pool.curAvailable < roundUp minSize pool.memoryChunkSize →
        pool.globalAllocSize + roundUp minSize pool.memoryChunkSize ≤
          sizeLimit)
    (raised : pool.raiseChunkSize config others minSize base = some after) :
    after.IsSound ∧ Extends config others pool after ∧
      (∀ line, line ∣ pool.memoryChunkSize → line ∣ after.memoryChunkSize) ∧
      after.memoryChunkSize ≤ after.curAvailable := by
  unfold raiseChunkSize at raised
  split at raised
  · rename_i larger
    split at raised
    · cases raised
    · have multiple : ∀ line, line ∣ pool.memoryChunkSize →
          line ∣ roundUp minSize pool.memoryChunkSize :=
        fun line divides => divides.trans (dvd_roundUp _ _)
      simp only at raised
      split at raised
      · rename_i short
        obtain ⟨isSound, grown, size, available⟩ :=
          fillPool_fitAllocSize_spec raised sound.positive
            (Nat.zero_lt_of_lt short) (permitted larger short)
        refine ⟨isSound, ?_, ?_, available⟩
        · refine Extends.trans ?_ grown
          exact .of_same rfl rfl
        · rw [size]
          exact multiple
      · rename_i room
        cases raised
        obtain ⟨range, last, nonzero, inside, ends, within⟩ := sound.current
        refine ⟨⟨?_, sound.positive, sound.bound, sound.available, ?_⟩,
          .of_same rfl rfl, multiple, not_lt.mp room⟩
        · exact (not_lt.mp room).trans sound.available
        · exact ⟨range, last, nonzero, inside, ends, within⟩
  · cases raised
    exact ⟨sound, .of_same rfl rfl, fun _ => id, enough⟩

/-- A chunk is cut off the rest of the range. -/
theorem carve_spec (sound : pool.IsSound)
    (enough : pool.memoryChunkSize ≤ pool.curAvailable) :
    pool.carve.curMemoryChunk = pool.curMemoryChunk + pool.memoryChunkSize ∧
      pool.carve.curAvailable = pool.curAvailable - pool.memoryChunkSize := by
  obtain ⟨range, -, -, inside, ends, -⟩ := sound.current
  have available := sound.available
  have bound := sound.bound
  have limit : pool.curMemoryChunk + pool.curAvailable = range.limit := ends
  constructor
  · exact Nat.mod_eq_of_lt (by omega)
  · change (pool.curAvailable + (sizeLimit - pool.memoryChunkSize)) %
      sizeLimit = _
    have split : pool.curAvailable + (sizeLimit - pool.memoryChunkSize) =
        (pool.curAvailable - pool.memoryChunkSize) + sizeLimit := by omega
    rw [split, Nat.add_mod_right, Nat.mod_eq_of_lt (by omega)]

end GlobalPool

/-- The block is cut off the front of what was left of the current range. -/
structure Block.IsCarved (block : Block) : Prop where
  within : ∃ range, block.pool.oldMemoryChunks.getLast? = some range ∧
    0 < range.base ∧ Range.IsWithin ⟨block.address, block.chunkSize⟩ range ∧
    block.chunkSize + block.pool.curAvailable = range.limit - block.address

/-- What `getMemory` does to a pool. -/
structure Block.IsTakenFrom (config : Config) (others : List Range)
    (pool : GlobalPool) (block : Block) : Prop where
  isSound : block.pool.IsSound
  isCarved : block.IsCarved
  accounted : ∀ byte,
    block.pool.rest.covers byte +
        Range.covers ⟨block.address, block.chunkSize⟩ byte +
        coverage pool.oldMemoryChunks byte ≤
      pool.rest.covers byte + coverage block.pool.oldMemoryChunks byte
  apart : (∀ byte,
      coverage others byte + coverage pool.oldMemoryChunks byte ≤ 1) →
    ∀ byte,
      coverage others byte + coverage block.pool.oldMemoryChunks byte ≤ 1
  kept : ∀ range ∈ pool.oldMemoryChunks,
    range ∈ block.pool.oldMemoryChunks
  aligned : config.cacheLineSize ∣ pool.memoryChunkSize →
    config.cacheLineSize ∣ pool.curMemoryChunk →
      config.cacheLineSize ∣ block.pool.memoryChunkSize ∧
        config.cacheLineSize ∣ block.pool.curMemoryChunk ∧
        config.cacheLineSize ∣ block.address

theorem GlobalPool.getMemory_spec {config : Config} {others : List Range}
    {pool : GlobalPool} {minSize first second : Nat} {block : Block}
    (sound : pool.IsSound)
    (permitted : pool.permits config others minSize first = true)
    (taken :
      pool.getMemory config others minSize first second = some block) :
    block.IsTakenFrom config others pool := by
  obtain ⟨ensured, isEnsured, rest⟩ := Option.bind_eq_some_iff.mp taken
  obtain ⟨raised, isRaised, rfl⟩ := Option.map_eq_some_iff.mp rest
  simp only [GlobalPool.permits, isEnsured, Option.all_some,
    Bool.and_eq_true, Bool.or_eq_true, Bool.not_eq_true',
    decide_eq_false_iff_not] at permitted
  obtain ⟨permittedFirst, permittedSecond⟩ := permitted
  obtain ⟨soundEnsured, grownEnsured, sameSize, enoughEnsured⟩ :=
    GlobalPool.ensureChunk_spec sound
      (fun short some => permittedFirst.resolve_left fun no =>
        no ⟨short, some⟩) isEnsured
  obtain ⟨soundRaised, grownRaised, multiple, enough⟩ :=
    GlobalPool.raiseChunkSize_spec soundEnsured enoughEnsured
      (fun larger short => of_decide_eq_true
        (permittedSecond.resolve_left fun no => no ⟨larger, short⟩)) isRaised
  have grown := grownEnsured.trans grownRaised
  obtain ⟨address, available⟩ := GlobalPool.carve_spec soundRaised enough
  obtain ⟨range, last, nonzero, inside, ends, within⟩ := soundRaised.current
  have limit : raised.curMemoryChunk + raised.curAvailable = range.limit :=
    ends
  have start : range.base ≤ raised.curMemoryChunk := within.1
  refine ⟨⟨soundRaised.fits, soundRaised.positive, soundRaised.bound, ?_, ?_⟩,
    ⟨range, last, nonzero, ⟨start, ?_⟩, ?_⟩, ?_, grown.apart, grown.kept, ?_⟩
  · rw [available]
    exact (Nat.sub_le _ _).trans soundRaised.available
  · refine ⟨range, last, nonzero, inside, ?_, ?_, ?_⟩
    · change raised.carve.curMemoryChunk + raised.carve.curAvailable = _
      omega
    · change range.base ≤ raised.carve.curMemoryChunk
      omega
    · change raised.carve.curMemoryChunk + raised.carve.curAvailable ≤ _
      omega
  · change raised.curMemoryChunk + raised.memoryChunkSize ≤ _
    omega
  · change raised.memoryChunkSize + raised.carve.curAvailable =
      range.limit - raised.curMemoryChunk
    omega
  · intro byte
    have counted := grown.accounted byte
    have cut := Range.covers_split raised.curMemoryChunk
      raised.memoryChunkSize (raised.curAvailable - raised.memoryChunkSize)
      byte
    rw [Nat.add_sub_cancel' enough] at cut
    change Range.covers
        ⟨raised.carve.curMemoryChunk, raised.carve.curAvailable⟩ byte +
        Range.covers ⟨raised.curMemoryChunk, raised.memoryChunkSize⟩ byte +
        coverage pool.oldMemoryChunks byte ≤
      pool.rest.covers byte + coverage raised.oldMemoryChunks byte
    rw [address, available]
    change Range.covers ⟨raised.curMemoryChunk, raised.curAvailable⟩ byte +
      coverage pool.oldMemoryChunks byte ≤ _ at counted
    omega
  · intro chunkLine addressLine
    have size := multiple config.cacheLineSize (by rwa [sameSize])
    have aligned := grown.aligned addressLine
    refine ⟨size, ?_, aligned⟩
    rw [address]
    exact Nat.dvd_add aligned size

/-! ## Sizes in cache lines -/

/-- The low bits are masked out. -/
theorem and_mask {value bits : Nat} (bound : value < 2 ^ 64)
    (few : bits < 64) :
    value &&& (2 ^ 64 - 1 - (2 ^ bits - 1)) = value / 2 ^ bits * 2 ^ bits := by
  have small : 2 ^ bits - 1 < 2 ^ 64 :=
    lt_of_le_of_lt (Nat.sub_le _ _) (Nat.pow_lt_pow_right (by decide) few)
  have mask : 2 ^ 64 - 1 - (2 ^ bits - 1) = 2 ^ 64 - (2 ^ bits - 1 + 1) := by
    omega
  apply Nat.eq_of_testBit_eq
  intro index
  rw [Nat.testBit_and, mask, Nat.testBit_two_pow_sub_succ small,
    Nat.testBit_two_pow_sub_one, Nat.testBit_mul_two_pow,
    Nat.testBit_div_two_pow]
  by_cases high : bits ≤ index
  · rw [Nat.sub_add_cancel high]
    by_cases inside : index < 64
    · simp [high, inside]
    · have none : value.testBit index = false :=
        Nat.testBit_lt_two_pow (lt_of_lt_of_le bound
          (Nat.pow_le_pow_right (by decide) (not_lt.mp inside)))
      simp [none]
  · simp [high]
    omega

namespace Config

variable (config : Config)

theorem cacheLineSize_pos : 0 < config.cacheLineSize :=
  Nat.two_pow_pos _

theorem eight_le_cacheLineSize : 8 ≤ config.cacheLineSize := by
  have large : 2 ^ 3 ≤ 2 ^ config.lineBits :=
    Nat.pow_le_pow_right Nat.two_pos config.lines.1
  exact large

theorem roundedSize_eq (size : Nat) :
    config.roundedSize size =
      (size + (config.cacheLineSize - 1)) % sizeLimit / config.cacheLineSize *
        config.cacheLineSize := by
  unfold roundedSize
  exact and_mask (Nat.mod_lt _ (Nat.two_pow_pos 64)) config.lines.2

theorem roundedSize_eq_cacheLines (size : Nat) :
    config.roundedSize size =
      config.cacheLines size * config.cacheLineSize := by
  unfold cacheLines
  rw [roundedSize_eq, Nat.mul_div_cancel _ config.cacheLineSize_pos]

/-- Unless the rounding overflows to 0, the rounded size is large enough. -/
theorem le_roundedSize {size : Nat} (bound : size < sizeLimit)
    (positive : 0 < config.roundedSize size) :
    size ≤ config.roundedSize size := by
  have line := config.cacheLineSize_pos
  rw [roundedSize_eq] at positive ⊢
  by_cases fits : size + (config.cacheLineSize - 1) < sizeLimit
  · rw [Nat.mod_eq_of_lt fits]
    have whole := Nat.div_add_mod (size + (config.cacheLineSize - 1))
      config.cacheLineSize
    have rest := Nat.mod_lt (size + (config.cacheLineSize - 1)) line
    rw [Nat.mul_comm] at whole
    omega
  · -- What is left after an overflow is less than a cache line.
    have wrapped : (size + (config.cacheLineSize - 1)) % sizeLimit =
        size + (config.cacheLineSize - 1) - sizeLimit := by
      rw [Nat.mod_eq_sub_mod (not_lt.mp fits)]
      refine Nat.mod_eq_of_lt ?_
      have small : config.cacheLineSize < sizeLimit :=
        Nat.pow_lt_pow_right (by decide) config.lines.2
      omega
    rw [wrapped, Nat.div_eq_of_lt (by omega), Nat.zero_mul] at positive
    exact absurd positive (Nat.lt_irrefl _)

end Config

/-! ## Linking the chunks of a block -/

/-- Only the chunks are written. -/
theorem linkChunks_outside (top chunkSize : Nat) (memory : Nat → Nat)
    (index count address : Nat)
    (outside : address ∉
      chunksFrom (top + index * chunkSize) chunkSize (count + 1)) :
    linkChunks top chunkSize memory (top + index * chunkSize) (index + 1)
      count address = memory address := by
  induction count generalizing memory index with
  | zero =>
      refine Function.update_of_ne ?_ ..
      rintro rfl
      exact outside List.mem_cons_self
  | succ count inductionHypothesis =>
      unfold linkChunks
      rw [chunksFrom, List.mem_cons, not_or] at outside
      have next : top + index * chunkSize + chunkSize =
          top + (index + 1) * chunkSize := by ring
      rw [inductionHypothesis]
      · exact Function.update_of_ne outside.1 ..
      · rw [← next]
        exact outside.2

theorem linked_linkChunks (top chunkSize : Nat) (memory : Nat → Nat)
    (index count : Nat) (isChunk : 0 < top) (positive : 0 < chunkSize) :
    Linked
      (linkChunks top chunkSize memory (top + index * chunkSize) (index + 1)
        count)
      (top + index * chunkSize)
      (chunksFrom (top + index * chunkSize) chunkSize (count + 1)) := by
  induction count generalizing memory index with
  | zero =>
      refine ⟨rfl, by omega, ?_⟩
      exact Function.update_self ..
  | succ count inductionHypothesis =>
      have next : top + index * chunkSize + chunkSize =
          top + (index + 1) * chunkSize := by ring
      refine ⟨rfl, by omega, ?_⟩
      unfold linkChunks
      -- The chunk is written once, before the later ones.
      have later : top + index * chunkSize ∉
          chunksFrom (top + (index + 1) * chunkSize) chunkSize
            (count + 1) := by
        intro member
        obtain ⟨distance, -, equal⟩ := mem_chunksFrom member
        rw [← next] at equal
        omega
      rw [linkChunks_outside _ _ _ _ _ _ later, Function.update_self, next]
      exact inductionHypothesis ..

/-- All chunks of a block are linked, and nothing else is written. -/
theorem linkChunks_spec {top chunkSize : Nat} (memory : Nat → Nat)
    (count : Nat) (isChunk : 0 < top) (positive : 0 < chunkSize) :
    Linked (linkChunks top chunkSize memory top 1 count) top
        (chunksFrom top chunkSize (count + 1)) ∧
      ∀ address, address ∉ chunksFrom top chunkSize (count + 1) →
        linkChunks top chunkSize memory top 1 count address =
          memory address := by
  have linked := linked_linkChunks top chunkSize memory 0 count isChunk
    positive
  have outside := linkChunks_outside top chunkSize memory 0 count
  rw [Nat.zero_mul, Nat.add_zero] at linked outside
  exact ⟨linked, outside⟩

/-! ## The pools -/

/-- A pool of chunks with the list of its free chunks. -/
abbrev Entry := MemoryPool × List Nat

def Entry.chunks (entry : Entry) : List Range :=
  entry.2.map fun chunk => ⟨chunk, entry.1.chunkSize⟩

theorem Entry.mem_chunks {entry : Entry} {chunk : Nat}
    (inside : chunk ∈ entry.2) :
    (⟨chunk, entry.1.chunkSize⟩ : Range) ∈ entry.chunks :=
  List.mem_map_of_mem inside

/-- The memory that a chunk in use takes. -/
def Config.block (config : Config) (allocation : Allocation) : Range :=
  ⟨allocation.chunk, config.roundedSize allocation.size⟩

namespace State

def ranges (state : State) : List Range :=
  state.globalMemoryPool.flatMap GlobalPool.oldMemoryChunks

/-- How often a byte is left in the global pools. -/
def unused (state : State) (byte : Nat) : Nat :=
  total (fun pool => pool.rest.covers byte) state.globalMemoryPool

/-- How often a byte is in use. -/
def used (config : Config) (state : State) (byte : Nat) : Nat :=
  coverage (state.live.map config.block) byte

end State

/-- A chunk begins with a cache line and lies inside one of the ranges. -/
structure IsChunk (config : Config) (ranges : List Range) (chunk : Range) :
    Prop where
  nonempty : 0 < chunk.size
  nonnull : 0 < chunk.base
  aligned : config.cacheLineSize ∣ chunk.base
  within : ∃ range ∈ ranges, chunk.IsWithin range

theorem IsChunk.mono {config : Config} {ranges after : List Range}
    {chunk : Range} (isChunk : IsChunk config ranges chunk)
    (kept : ∀ range ∈ ranges, range ∈ after) :
    IsChunk config after chunk := by
  obtain ⟨range, member, within⟩ := isChunk.within
  exact { isChunk with within := ⟨range, kept range member, within⟩ }

/-- How often a byte is in a free chunk. -/
def pooled (entries : List Entry) (byte : Nat) : Nat :=
  total (fun entry => coverage (Entry.chunks entry) byte) entries

structure Invariant (config : Config) (state : State)
    (entries : List Entry) : Prop where
  pools : entries.map Prod.fst = state.memoryPools
  linked : ∀ entry ∈ entries,
    Linked state.memory entry.1.topChunk entry.2
  sizes : ∀ entry ∈ entries,
    entry.1.chunkSize = entry.1.cacheLines * config.cacheLineSize
  free : ∀ entry ∈ entries, ∀ chunk ∈ Entry.chunks entry,
    IsChunk config state.ranges chunk
  live : ∀ allocation ∈ state.live,
    IsChunk config state.ranges (config.block allocation) ∧
      allocation.size ≤ config.roundedSize allocation.size
  sound : ∀ pool ∈ state.globalMemoryPool, pool.IsSound
  chunkLines : ∀ pool ∈ state.globalMemoryPool,
    config.cacheLineSize ∣ pool.memoryChunkSize ∧
      config.cacheLineSize ∣ pool.curMemoryChunk
  once : ∀ byte, coverage state.ranges byte ≤ 1
  /-- No byte is in two places. -/
  accounted : ∀ byte,
    state.unused byte + pooled entries byte +
      state.used config byte ≤ coverage state.ranges byte

/-! ## A block is taken from one of the global pools -/

section Taken

variable {config : Config} {state : State} {node : Nat} {global : GlobalPool}
  {block : Block}

/-- The state after a global pool has handed out a block. -/
def State.afterBlock (state : State) (node : Nat) (block : Block) : State :=
  { state with
    globalMemoryPool := replaceAt state.globalMemoryPool node [block.pool] }

/-- The ranges of one global pool and those of the others. -/
theorem coverage_ranges
    (found : state.globalMemoryPool[node]? = some global) (byte : Nat) :
    coverage (state.othersRanges node) byte +
        coverage global.oldMemoryChunks byte =
      coverage state.ranges byte := by
  unfold State.othersRanges State.ranges
  rw [coverage_flatMap, coverage_flatMap]
  exact total_eraseIdx _ found

theorem coverage_ranges_afterBlock
    (found : state.globalMemoryPool[node]? = some global) (byte : Nat) :
    coverage (state.afterBlock node block).ranges byte =
      coverage (state.othersRanges node) byte +
        coverage block.pool.oldMemoryChunks byte := by
  have exchanged := total_replaceAt
    (fun pool => coverage (GlobalPool.oldMemoryChunks pool) byte)
    [block.pool] found
  rw [total_singleton, ← coverage_flatMap, ← coverage_flatMap] at exchanged
  have before := coverage_ranges found byte
  change coverage (state.afterBlock node block).ranges byte + _ =
    coverage state.ranges byte + _ at exchanged
  omega

/-- The block comes out of what was left, or of fresh memory. -/
theorem accounted_afterBlock
    (found : state.globalMemoryPool[node]? = some global)
    (taken : block.IsTakenFrom config (state.othersRanges node) global)
    (byte : Nat) :
    (state.afterBlock node block).unused byte +
        Range.covers ⟨block.address, block.chunkSize⟩ byte +
        coverage state.ranges byte ≤
      state.unused byte +
        coverage (state.afterBlock node block).ranges byte := by
  have exchanged := total_replaceAt
    (fun pool => (GlobalPool.rest pool).covers byte) [block.pool] found
  rw [total_singleton] at exchanged
  change (state.afterBlock node block).unused byte + _ =
    state.unused byte + _ at exchanged
  have accounted := taken.accounted byte
  rw [coverage_ranges_afterBlock found, ← coverage_ranges found]
  omega

theorem once_afterBlock
    (found : state.globalMemoryPool[node]? = some global)
    (taken : block.IsTakenFrom config (state.othersRanges node) global)
    (once : ∀ byte, coverage state.ranges byte ≤ 1) (byte : Nat) :
    coverage (state.afterBlock node block).ranges byte ≤ 1 := by
  rw [coverage_ranges_afterBlock found]
  refine taken.apart (fun byte => ?_) byte
  rw [coverage_ranges found]
  exact once byte

theorem mem_ranges_afterBlock
    (found : state.globalMemoryPool[node]? = some global)
    (taken : block.IsTakenFrom config (state.othersRanges node) global)
    {range : Range} (member : range ∈ state.ranges) :
    range ∈ (state.afterBlock node block).ranges := by
  obtain ⟨owner, isOwner, owned⟩ := List.mem_flatMap.mp member
  rcases eq_or_mem_replaceAt [block.pool] found isOwner with rfl | still
  · refine List.mem_flatMap.mpr ⟨block.pool, ?_, taken.kept range owned⟩
    exact List.mem_append_left _ (List.mem_append_right _ List.mem_cons_self)
  · exact List.mem_flatMap.mpr ⟨owner, still, owned⟩

/-- The block is a part of one of the ranges. -/
theorem block_within (state : State)
    (taken : block.IsTakenFrom config (state.othersRanges node) global) :
    0 < block.address ∧ ∃ range ∈ (state.afterBlock node block).ranges,
      Range.IsWithin ⟨block.address, block.chunkSize⟩ range := by
  obtain ⟨range, last, nonzero, within, -⟩ := taken.isCarved.within
  refine ⟨lt_of_lt_of_le nonzero within.1, range, ?_, within⟩
  refine List.mem_flatMap.mpr ⟨block.pool, ?_, List.mem_of_getLast? last⟩
  exact List.mem_append_left _ (List.mem_append_right _ List.mem_cons_self)

end Taken

namespace Invariant

variable {config : Config} {state next : State} {entries : List Entry}

/-- The pool at an index with its free chunks. -/
theorem entry (invariant : Invariant config state entries) {index : Nat}
    {pool : MemoryPool} (found : state.memoryPools[index]? = some pool) :
    ∃ chunks, entries[index]? = some (pool, chunks) := by
  rw [← invariant.pools, List.getElem?_map, Option.map_eq_some_iff] at found
  obtain ⟨⟨_, chunks⟩, there, rfl⟩ := found
  exact ⟨chunks, there⟩

/-- No free chunk starts inside a chunk in use, and the other way round. -/
theorem not_pooled_of_used (invariant : Invariant config state entries)
    {byte : Nat} (used : 0 < state.used config byte) :
    pooled entries byte = 0 := by
  have accounted := invariant.accounted byte
  have once := invariant.once byte
  omega

theorem pooled_pos {entry : Entry} {chunk : Range} {byte : Nat}
    (member : entry ∈ entries) (inside : chunk ∈ Entry.chunks entry)
    (contains : chunk.Contains byte) : 0 < pooled entries byte := by
  have covered := covers_le_coverage inside byte
  rw [Range.covers_of_contains contains] at covered
  by_contra nothing
  have zero : coverage (Entry.chunks entry) byte = 0 :=
    eq_zero_of_total (Nat.eq_zero_of_not_pos nothing) member
  omega

theorem used_pos {allocation : Allocation} {byte : Nat}
    (member : allocation ∈ state.live)
    (contains : (config.block allocation).Contains byte) :
    0 < state.used config byte := by
  have covered := covers_le_coverage
    (List.mem_map_of_mem member : config.block allocation ∈ _) byte
  rw [Range.covers_of_contains contains] at covered
  exact covered

/-- A write outside the free chunks leaves their links alone. -/
theorem linked_of_outside (invariant : Invariant config state entries)
    (memory : Nat → Nat)
    (outside : ∀ address, 0 < pooled entries address →
      memory address = state.memory address) :
    ∀ entry ∈ entries, Linked memory entry.1.topChunk entry.2 := by
  intro entry member
  refine (invariant.linked entry member).congr fun chunk inside => ?_
  have isChunk := Entry.mem_chunks inside
  have positive := (invariant.free entry member _ isChunk).nonempty
  exact outside chunk (pooled_pos member isChunk
    ⟨le_rfl, Nat.lt_add_of_pos_right positive⟩)

/-- The program writes into a chunk. -/
theorem write (invariant : Invariant config state entries)
    {allocation : Allocation} (member : allocation ∈ state.live)
    (contents : Nat → Nat) :
    Invariant config (state.write allocation contents) entries := by
  refine { invariant with linked := ?_ }
  intro entry inEntries
  refine (invariant.linked entry inEntries).congr fun chunk inside => ?_
  refine if_neg ?_
  rintro ⟨before, after⟩
  -- A byte of the pointer would belong to both chunks.
  have isFree := Entry.mem_chunks inside
  have size := invariant.sizes entry inEntries
  have nonempty := (invariant.free entry inEntries _ isFree).nonempty
  have room : 8 ≤ entry.1.chunkSize := by
    change 0 < entry.1.chunkSize at nonempty
    have lines : 1 ≤ entry.1.cacheLines := by
      by_contra none
      rw [size, Nat.eq_zero_of_not_pos none, Nat.zero_mul] at nonempty
      exact absurd nonempty (Nat.lt_irrefl _)
    rw [size]
    exact config.eight_le_cacheLineSize.trans (Nat.le_mul_of_pos_left _ lines)
  obtain ⟨isUsed, large⟩ := invariant.live allocation member
  have some : 0 < config.roundedSize allocation.size := isUsed.nonempty
  have inFree : 0 < pooled entries (max chunk allocation.chunk) := by
    refine pooled_pos inEntries isFree ⟨le_max_left .., ?_⟩
    change max chunk allocation.chunk < chunk + entry.1.chunkSize
    omega
  have inUse : 0 < state.used config (max chunk allocation.chunk) := by
    refine used_pos member ⟨le_max_right .., ?_⟩
    change max chunk allocation.chunk <
      allocation.chunk + config.roundedSize allocation.size
    omega
  have nothing := invariant.not_pooled_of_used inUse
  omega

/-- The pool at an index is exchanged for one with other free chunks. -/
theorem pooled_replaceAt {index : Nat} {before : Entry}
    (found : entries[index]? = some before) (after : Entry) (byte : Nat) :
    pooled (replaceAt entries index [after]) byte +
        coverage (Entry.chunks before) byte =
      pooled entries byte + coverage (Entry.chunks after) byte := by
  have counted := total_replaceAt
    (fun entry => coverage (Entry.chunks entry) byte) [after] found
  rwa [total_singleton] at counted

/-- The top chunk of a pool is taken for a size that it fits. -/
theorem popChunk (invariant : Invariant config state entries)
    {index size : Nat} {pool : MemoryPool}
    (found : state.memoryPools[index]? = some pool)
    (isChunk : pool.topChunk ≠ 0)
    (fits : pool.chunkSize = config.roundedSize size)
    (bound : size < sizeLimit)
    (taken : state.popChunk index size = some next) :
    ∃ after, Invariant config next after := by
  unfold State.popChunk at taken
  rw [found, Option.map_some, Option.some.injEq] at taken
  subst taken
  obtain ⟨chunks, there⟩ := invariant.entry found
  have member := List.mem_of_getElem? there
  obtain ⟨rest, isTop, linkedRest⟩ :=
    (invariant.linked _ member).pop isChunk
  change chunks = pool.topChunk :: rest at isTop
  subst isTop
  have top := invariant.free _ member ⟨pool.topChunk, pool.chunkSize⟩
    (Entry.mem_chunks List.mem_cons_self)
  let after : Entry :=
    ({ pool with topChunk := state.memory pool.topChunk }, rest)
  refine ⟨replaceAt entries index [after],
    { invariant with
      pools := ?_
      linked := forall_replaceAt invariant.linked linkedRest
      sizes := forall_replaceAt invariant.sizes (invariant.sizes _ member :)
      free := forall_replaceAt invariant.free ?_
      live := ?_
      accounted := ?_ }⟩
  · rw [map_replaceAt, invariant.pools]
    rfl
  · intro chunk inChunks
    exact invariant.free _ member chunk (List.mem_cons_of_mem _ inChunks)
  · intro allocation inLive
    rcases List.mem_cons.mp inLive with rfl | old
    · unfold Config.block
      rw [fits] at top
      exact ⟨top, config.le_roundedSize bound top.nonempty⟩
    · exact invariant.live allocation old
  · intro byte
    have counted := pooled_replaceAt there after byte
    have accounted := invariant.accounted byte
    have moved : coverage (Entry.chunks (pool, pool.topChunk :: rest)) byte =
        Range.covers ⟨pool.topChunk, pool.chunkSize⟩ byte +
          coverage (Entry.chunks after) byte := coverage_cons ..
    have used : State.used config
        { state with
          memoryPools := replaceAt state.memoryPools index [after.1]
          live := { chunk := pool.topChunk, size := size } :: state.live }
        byte =
        Range.covers ⟨pool.topChunk, pool.chunkSize⟩ byte +
          state.used config byte := by
      rw [fits]
      exact coverage_cons ..
    change state.unused byte + _ + _ ≤ coverage state.ranges byte
    rw [used]
    omega

/-- A chunk in use is put on top of a pool of its size. -/
theorem returnChunk (invariant : Invariant config state entries)
    {index : Nat} {pool : MemoryPool} {allocation : Allocation}
    (found : state.memoryPools[index]? = some pool)
    (fits : pool.chunkSize = config.roundedSize allocation.size)
    (inUse : allocation ∈ state.live)
    (taken : state.returnChunk index allocation = some next) :
    ∃ after, Invariant config next after := by
  unfold State.returnChunk at taken
  rw [found, Option.map_some, Option.some.injEq] at taken
  subst taken
  obtain ⟨chunks, there⟩ := invariant.entry found
  have member := List.mem_of_getElem? there
  have isChunk := (invariant.live allocation inUse).1
  have unpooled : pooled entries allocation.chunk = 0 :=
    invariant.not_pooled_of_used (used_pos inUse
      ⟨le_rfl, Nat.lt_add_of_pos_right isChunk.nonempty⟩)
  have linkedOthers := invariant.linked_of_outside
    (Function.update state.memory allocation.chunk pool.topChunk)
    (by
      intro address positive
      refine Function.update_of_ne ?_ ..
      rintro rfl
      rw [unpooled] at positive
      exact absurd positive (Nat.lt_irrefl _))
  have outside : allocation.chunk ∉ chunks := by
    intro inside
    have some : 0 < pool.chunkSize := by
      rw [fits]
      exact isChunk.nonempty
    have positive := pooled_pos member (Entry.mem_chunks inside)
      ⟨le_rfl, Nat.lt_add_of_pos_right some⟩
    rw [unpooled] at positive
    exact absurd positive (Nat.lt_irrefl _)
  let after : Entry :=
    ({ pool with topChunk := allocation.chunk }, allocation.chunk :: chunks)
  have block : config.block allocation =
      ⟨allocation.chunk, pool.chunkSize⟩ := by
    rw [fits]
    rfl
  refine ⟨replaceAt entries index [after],
    { invariant with
      pools := ?_
      linked := forall_replaceAt linkedOthers
        ((invariant.linked _ member).push
          (Nat.pos_iff_ne_zero.mp isChunk.nonnull) outside)
      sizes := forall_replaceAt invariant.sizes (invariant.sizes _ member :)
      free := forall_replaceAt invariant.free ?_
      live := ?_
      accounted := ?_ }⟩
  · rw [map_replaceAt, invariant.pools]
    rfl
  · intro chunk inChunks
    rcases List.mem_cons.mp inChunks with rfl | later
    · rw [block] at isChunk
      exact isChunk
    · exact invariant.free _ member chunk later
  · intro other inLive
    exact invariant.live other (List.mem_of_mem_erase inLive)
  · intro byte
    have counted := pooled_replaceAt there after byte
    have accounted := invariant.accounted byte
    have moved : coverage (Entry.chunks after) byte =
        (config.block allocation).covers byte +
          coverage (Entry.chunks (pool, chunks)) byte := by
      rw [block]
      exact coverage_cons ..
    have used : (config.block allocation).covers byte +
        coverage ((state.live.erase allocation).map config.block) byte =
          state.used config byte := by
      have permuted := (List.perm_cons_erase inUse).map
        fun other => (config.block other).covers byte
      have sums := permuted.sum_eq
      rw [List.map_cons, List.sum_cons] at sums
      unfold State.used coverage total
      rw [List.map_map, List.map_map]
      exact sums.symm
    change state.unused byte + _ +
      coverage ((state.live.erase allocation).map config.block) byte ≤
        coverage state.ranges byte
    omega

/-- The pool that is found or created has the size of the request. -/
theorem getPool (invariant : Invariant config state entries)
    (place : Option CPU) (size : Nat) :
    ∃ after pool, Invariant config (state.getPool config place size).1 after ∧
      (state.getPool config place size).1.memoryPools[
        (state.getPool config place size).2]? = some pool ∧
      pool.chunkSize = config.roundedSize size ∧
      (state.getPool config place size).1.live = state.live := by
  unfold State.getPool
  split
  · rename_i index found
    obtain ⟨inside, isPool, -⟩ := List.findIdx?_eq_some_iff_getElem.mp found
    simp only [Bool.and_eq_true, beq_iff_eq] at isPool
    have there := List.getElem?_eq_getElem inside
    obtain ⟨chunks, inEntries⟩ := invariant.entry there
    have sized := invariant.sizes _ (List.mem_of_getElem? inEntries)
    refine ⟨entries, state.memoryPools[index], invariant, there, ?_, rfl⟩
    rw [config.roundedSize_eq_cacheLines, ← isPool.2]
    exact sized
  · let created := State.newPool config place size
    have nothing : ∀ byte,
        pooled (entries ++ [(created, [])]) byte = pooled entries byte := by
      intro byte
      unfold pooled
      rw [total_append, total_singleton]
      rfl
    refine ⟨entries ++ [(created, [])], created,
      { invariant with
        pools := ?_
        linked := ?_
        sizes := ?_
        free := ?_
        accounted := ?_ }, List.getElem?_concat_length, rfl, rfl⟩
    · rw [List.map_append, invariant.pools]
      rfl
    · refine List.forall_mem_append.mpr ⟨invariant.linked, ?_⟩
      rintro entry ⟨⟩
      · rfl
      · rename_i impossible
        cases impossible
    · refine List.forall_mem_append.mpr ⟨invariant.sizes, ?_⟩
      intro entry new
      rw [List.mem_singleton.mp new]
      exact config.roundedSize_eq_cacheLines size
    · refine List.forall_mem_append.mpr ⟨invariant.free, ?_⟩
      intro entry new chunk inside
      rw [List.mem_singleton.mp new] at inside
      cases inside
    · intro byte
      rw [nothing]
      exact invariant.accounted byte

/-- No free chunk has a byte of the block. -/
theorem not_pooled_of_block (invariant : Invariant config state entries)
    {node : Nat} {global : GlobalPool} {block : Block}
    (found : state.globalMemoryPool[node]? = some global)
    (taken : block.IsTakenFrom config (state.othersRanges node) global)
    {byte : Nat}
    (contains : Range.Contains ⟨block.address, block.chunkSize⟩ byte) :
    pooled entries byte = 0 := by
  have accounted := invariant.accounted byte
  have after := accounted_afterBlock found taken byte
  have once := once_afterBlock found taken invariant.once byte
  rw [Range.covers_of_contains contains] at after
  omega

/-- A pool without chunks gets those of a block of the global pool. -/
theorem addChunks (invariant : Invariant config state entries)
    {index count : Nat} {pool : MemoryPool} {global : GlobalPool}
    {block : Block} (found : state.memoryPools[index]? = some pool)
    (empty : pool.topChunk = 0)
    (there : state.globalMemoryPool[pool.globalAllocator]? = some global)
    (taken : block.IsTakenFrom config
      (state.othersRanges pool.globalAllocator) global)
    (some : 0 < pool.chunkSize)
    (inBlock : (count + 1) * pool.chunkSize ≤ block.chunkSize) :
    Invariant config
      { state.afterBlock pool.globalAllocator block with
        memoryPools :=
          replaceAt state.memoryPools index
            [{ pool with topChunk := block.address }]
        memory :=
          linkChunks block.address pool.chunkSize state.memory block.address 1
            count }
      (replaceAt entries index
        [({ pool with topChunk := block.address },
          chunksFrom block.address pool.chunkSize (count + 1))]) := by
  have isGlobal := List.mem_of_getElem? there
  obtain ⟨chunkLines, addressLines⟩ := invariant.chunkLines global isGlobal
  obtain ⟨sizeAligned, curAligned, addressAligned⟩ :=
    taken.aligned chunkLines addressLines
  obtain ⟨nonnull, range, inRanges, within⟩ :=
    block_within state taken
  -- The pool had no chunks.
  obtain ⟨chunks, inEntries⟩ := invariant.entry found
  have member := List.mem_of_getElem? inEntries
  have isLinked : Linked state.memory pool.topChunk chunks :=
    invariant.linked _ member
  rw [empty] at isLinked
  have none := isLinked.eq_nil
  subst none
  have sized : pool.chunkSize = pool.cacheLines * config.cacheLineSize :=
    invariant.sizes _ member
  obtain ⟨linkedChunks, untouched⟩ :=
    linkChunks_spec state.memory count nonnull some
  -- The chunks lie in the block, one after the other.
  have inside : ∀ chunk ∈
      chunksFrom block.address pool.chunkSize (count + 1),
      block.address ≤ chunk ∧
        chunk + pool.chunkSize ≤ block.address + block.chunkSize ∧
        config.cacheLineSize ∣ chunk := by
    intro chunk isNew
    obtain ⟨distance, below, rfl⟩ := mem_chunksFrom isNew
    have before : (distance + 1) * pool.chunkSize ≤ block.chunkSize :=
      (Nat.mul_le_mul_right _ below).trans inBlock
    rw [Nat.succ_mul] at before
    refine ⟨Nat.le_add_right .., by omega, ?_⟩
    refine Nat.dvd_add addressAligned (Dvd.dvd.mul_left ?_ _)
    rw [sized]
    exact Nat.dvd_mul_left ..
  have linkedOthers := invariant.linked_of_outside
    (linkChunks block.address pool.chunkSize state.memory block.address 1
      count)
    (by
      intro address positive
      refine untouched address fun isNew => ?_
      obtain ⟨above, below, -⟩ := inside address isNew
      rw [invariant.not_pooled_of_block there taken
        ⟨above, lt_of_lt_of_le (Nat.lt_add_of_pos_right some) below⟩]
        at positive
      exact absurd positive (Nat.lt_irrefl _))
  have kept : ∀ range ∈ state.ranges,
      range ∈ (state.afterBlock pool.globalAllocator block).ranges :=
    fun _ => mem_ranges_afterBlock there taken
  refine
    { invariant with
      pools := ?_
      linked := forall_replaceAt linkedOthers linkedChunks
      sizes := forall_replaceAt invariant.sizes sized
      free := forall_replaceAt
        (fun entry old chunk isFree =>
          (invariant.free entry old chunk isFree).mono kept) ?_
      live := fun allocation inUse =>
        ⟨(invariant.live allocation inUse).1.mono kept,
          (invariant.live allocation inUse).2⟩
      sound := forall_replaceAt invariant.sound taken.isSound
      chunkLines :=
        forall_replaceAt invariant.chunkLines ⟨sizeAligned, curAligned⟩
      once := once_afterBlock there taken invariant.once
      accounted := ?_ }
  · rw [map_replaceAt, invariant.pools]
    rfl
  · intro chunk isNew
    obtain ⟨address, isAddress, rfl⟩ := List.mem_map.mp isNew
    obtain ⟨above, below, aligned⟩ := inside address isAddress
    exact
      { nonempty := some
        nonnull := lt_of_lt_of_le nonnull above
        aligned := aligned
        within := ⟨range, inRanges, within.1.trans above,
          below.trans within.2⟩ }
  · intro byte
    let after : Entry :=
      ({ pool with topChunk := block.address },
        chunksFrom block.address pool.chunkSize (count + 1))
    have newCovers : coverage (Entry.chunks after) byte ≤
        Range.covers ⟨block.address, block.chunkSize⟩ byte := by
      have cut : coverage (Entry.chunks after) byte =
          Range.covers ⟨block.address, (count + 1) * pool.chunkSize⟩ byte :=
        coverage_chunksFrom ..
      rw [cut]
      apply Range.covers_le_of_isWithin
      exact ⟨le_rfl, Nat.add_le_add_left inBlock _⟩
    have counted := pooled_replaceAt inEntries after byte
    have nothing : coverage (Entry.chunks (pool, [])) byte = 0 := rfl
    have accounted := invariant.accounted byte
    have exchanged := accounted_afterBlock there taken byte
    change (state.afterBlock pool.globalAllocator block).unused byte +
      pooled (replaceAt entries index [after]) byte +
        state.used config byte ≤
      coverage (state.afterBlock pool.globalAllocator block).ranges byte
    omega

theorem fillPool (invariant : Invariant config state entries)
    {index : Nat} {pool : MemoryPool} {first second : Nat}
    (found : state.memoryPools[index]? = some pool)
    (empty : pool.topChunk = 0)
    (permitted : ∀ global,
      state.globalMemoryPool[pool.globalAllocator]? = some global →
        global.permits config (state.othersRanges pool.globalAllocator)
          pool.chunkSize first = true)
    (filled : state.fillPool config index pool first second = some next) :
    ∃ after top, Invariant config next after ∧
      next.memoryPools[index]? = some { pool with topChunk := top } ∧
      top ≠ 0 := by
  obtain ⟨global, there, rest⟩ := Option.bind_eq_some_iff.mp filled
  obtain ⟨block, isBlock, built⟩ := Option.bind_eq_some_iff.mp rest
  simp only at built
  split at built
  · cases built
  rename_i enough
  rw [not_or] at enough
  cases built
  have taken := GlobalPool.getMemory_spec
    (invariant.sound global (List.mem_of_getElem? there))
    (permitted global there) isBlock
  obtain ⟨nonnull, -⟩ := block_within state taken
  obtain ⟨count, isCount⟩ := Nat.exists_eq_succ_of_ne_zero enough.2
  have inBlock : (count + 1) * pool.chunkSize ≤ block.chunkSize := by
    rw [← Nat.succ_eq_add_one, ← isCount]
    exact Nat.div_mul_le_self ..
  have added := invariant.addChunks found empty there taken
    (Nat.pos_of_ne_zero enough.1) inBlock
  have sameCount : block.chunkSize / pool.chunkSize - 1 = count := by omega
  rw [sameCount]
  exact ⟨_, block.address, added, getElem?_replaceAt_self _ found,
    Nat.pos_iff_ne_zero.mp nonnull⟩

/-- A chunk is taken from a pool of its size, which is filled before if it has
none. -/
theorem getChunk (invariant : Invariant config state entries)
    {index size first second : Nat} {pool : MemoryPool}
    (found : state.memoryPools[index]? = some pool)
    (fits : pool.chunkSize = config.roundedSize size)
    (bound : size < sizeLimit)
    (permitted : pool.topChunk = 0 → ∀ global,
      state.globalMemoryPool[pool.globalAllocator]? = some global →
        global.permits config (state.othersRanges pool.globalAllocator)
          pool.chunkSize first = true)
    (taken : state.getChunk config index size first second = some next) :
    ∃ after, Invariant config next after := by
  unfold State.getChunk at taken
  rw [found, Option.bind_some] at taken
  split at taken
  · rename_i empty
    obtain ⟨filled, isFilled, popped⟩ := Option.bind_eq_some_iff.mp taken
    obtain ⟨between, top, later, there, isChunk⟩ :=
      invariant.fillPool found empty (permitted empty) isFilled
    exact later.popChunk there isChunk fits bound popped
  · rename_i isChunk
    exact invariant.popChunk found isChunk fits bound taken

/-- A global pool with its first range. -/
theorem construct (invariant : Invariant config state entries)
    (lines : config.cacheLineSize ∣ config.memoryChunkSize) {base : Nat}
    {pool : GlobalPool}
    (constructed :
      GlobalPool.construct config state.ranges base = some pool) :
    Invariant config
      { state with globalMemoryPool := state.globalMemoryPool ++ [pool] }
      entries := by
  obtain ⟨-, positive, bound, multiple⟩ := config.accepted
  have fits : config.memoryChunkSize ≤ config.globalAllocSize :=
    Nat.le_of_dvd positive (Nat.dvd_of_mod_eq_zero multiple)
  obtain ⟨isSound, grown, size, -⟩ :=
    GlobalPool.fillPool_spec constructed fits positive bound
  have ranges : ∀ byte, coverage
      (State.ranges
        { state with globalMemoryPool := state.globalMemoryPool ++ [pool] })
      byte = coverage state.ranges byte +
        coverage pool.oldMemoryChunks byte := by
    intro byte
    unfold State.ranges
    rw [List.flatMap_append, coverage_append, List.flatMap_singleton]
  have kept : ∀ range ∈ state.ranges, range ∈ State.ranges
      { state with globalMemoryPool := state.globalMemoryPool ++ [pool] } := by
    intro range member
    unfold State.ranges
    rw [List.flatMap_append]
    exact List.mem_append_left _ member
  refine
    { invariant with
      free := fun entry member chunk isFree =>
        (invariant.free entry member chunk isFree).mono kept
      live := fun allocation inUse =>
        ⟨(invariant.live allocation inUse).1.mono kept,
          (invariant.live allocation inUse).2⟩
      sound := ?_
      chunkLines := ?_
      once := ?_
      accounted := ?_ }
  · refine List.forall_mem_append.mpr ⟨invariant.sound, ?_⟩
    intro other new
    rw [List.mem_singleton.mp new]
    exact isSound
  · refine List.forall_mem_append.mpr ⟨invariant.chunkLines, ?_⟩
    intro other new
    rw [List.mem_singleton.mp new, size]
    exact ⟨lines, grown.aligned (Nat.dvd_zero _)⟩
  · intro byte
    rw [ranges]
    refine grown.apart (fun byte => ?_) byte
    exact invariant.once byte
  · intro byte
    have accounted := invariant.accounted byte
    have fresh := grown.accounted byte
    have nothing : Range.covers ⟨0, 0⟩ byte = 0 := Range.covers_empty ..
    have unused : State.unused
        { state with globalMemoryPool := state.globalMemoryPool ++ [pool] }
        byte = state.unused byte + pool.rest.covers byte := by
      unfold State.unused
      rw [total_append, total_singleton]
    change pool.rest.covers byte + 0 ≤
      Range.covers ⟨0, 0⟩ byte + coverage pool.oldMemoryChunks byte at fresh
    rw [ranges, unused]
    change state.unused byte + pool.rest.covers byte +
      pooled entries byte + state.used config byte ≤ _
    omega

theorem step (lines : config.cacheLineSize ∣ config.memoryChunkSize)
    (invariant : Invariant config state entries) {action : Action}
    (permitted : Permitted config state action)
    (taken : step config state action = some next) :
    ∃ after, Invariant config next after := by
  cases action with
  | construct base =>
      obtain ⟨pool, constructed, rfl⟩ := Option.map_eq_some_iff.mp taken
      exact ⟨entries, invariant.construct lines constructed⟩
  | alloc place size first second =>
      obtain ⟨between, pool, later, found, fits, -⟩ :=
        invariant.getPool place size
      simp only [PoolAllocator.step] at taken
      split at taken
      · rename_i bound
        refine later.getChunk found fits bound ?_ taken
        intro empty global there
        simp only [Permitted, permits] at permitted
        rw [found, Option.all_some, there, Option.all_some, empty]
          at permitted
        exact permitted
      · cases taken
  | free place allocation =>
      obtain ⟨between, pool, later, found, fits, live⟩ :=
        invariant.getPool place allocation.size
      simp only [PoolAllocator.step] at taken
      split at taken
      · rename_i inUse
        rw [← live] at inUse
        exact later.returnChunk found fits inUse taken
      · cases taken
  | write allocation contents =>
      simp only [PoolAllocator.step] at taken
      split at taken
      · rename_i inUse
        cases taken
        exact ⟨entries, invariant.write inUse contents⟩
      · cases taken

theorem initial (config : Config) : Invariant config {} [] where
  pools := rfl
  linked := by simp
  sizes := by simp
  free := by simp
  live := by simp
  sound := by simp
  chunkLines := by simp
  once := fun _ => Nat.zero_le _
  accounted := fun _ => Nat.le_refl _

end Invariant

/-! ## What the allocator guarantees -/

/-- The memory that the program may use. -/
def Allocation.range (allocation : Allocation) : Range :=
  ⟨allocation.chunk, allocation.size⟩

structure State.IsSound (config : Config) (state : State) : Prop where
  disjoint : state.live.Pairwise fun first second =>
    first.range.Disjoint second.range
  aligned : ∀ allocation ∈ state.live,
    config.cacheLineSize ∣ allocation.chunk
  /-- The memory lies inside a range that the system has returned. -/
  within : ∀ allocation ∈ state.live,
    ∃ range ∈ state.ranges, allocation.range.IsWithin range

theorem Invariant.isSound {config : Config} {state : State}
    {entries : List Entry} (invariant : Invariant config state entries) :
    state.IsSound config := by
  have part : ∀ allocation ∈ state.live,
      allocation.range.IsWithin (config.block allocation) := by
    intro allocation inUse
    exact ⟨le_rfl, Nat.add_le_add_left (invariant.live allocation inUse).2 _⟩
  have blocks : (state.live.map config.block).Pairwise Range.Disjoint := by
    refine pairwise_disjoint fun byte => ?_
    have accounted := invariant.accounted byte
    have once := invariant.once byte
    unfold State.used at accounted
    omega
  refine ⟨?_, ?_, ?_⟩
  · refine (List.pairwise_map.mp blocks).imp_of_mem ?_
    intro first second inFirst inSecond apart byte firstContains
      secondContains
    obtain ⟨firstAbove, firstBelow⟩ := part first inFirst
    obtain ⟨secondAbove, secondBelow⟩ := part second inSecond
    exact apart byte
      ⟨firstAbove.trans firstContains.1,
        lt_of_lt_of_le firstContains.2 firstBelow⟩
      ⟨secondAbove.trans secondContains.1,
        lt_of_lt_of_le secondContains.2 secondBelow⟩
  · intro allocation inUse
    exact (invariant.live allocation inUse).1.aligned
  · intro allocation inUse
    obtain ⟨range, member, within⟩ :=
      (invariant.live allocation inUse).1.within
    obtain ⟨above, below⟩ := part allocation inUse
    exact ⟨range, member, within.1.trans above, below.trans within.2⟩

/-- A call of `getMemory` with any size but 0. -/
structure Request where
  others : List Range
  minSize : Nat
  first : Nat
  second : Nat
  positive : 0 < minSize
  bound : minSize < sizeLimit

namespace GlobalPool

def answer (config : Config) (pool : GlobalPool) (request : Request) :
    Option Block :=
  pool.getMemory config request.others request.minSize request.first
    request.second

/-- A global pool on its own. -/
def serve (config : Config) (pool : GlobalPool) (request : Request) :
    Option GlobalPool :=
  (pool.answer config request).map Block.pool

def Permits (config : Config) (pool : GlobalPool) (request : Request) :
    Prop :=
  pool.permits config request.others request.minSize request.first = true

instance (config : Config) (pool : GlobalPool) (request : Request) :
    Decidable (pool.Permits config request) :=
  inferInstanceAs (Decidable (_ = true))

theorem isSound_of_run {config : Config} {others : List Range} {base : Nat}
    {constructed pool : GlobalPool}
    (isConstructed : construct config others base = some constructed)
    (run : Run (serve config) (Permits config) constructed pool) :
    pool.IsSound := by
  obtain ⟨-, positive, bound, multiple⟩ := config.accepted
  have fits : config.memoryChunkSize ≤ config.globalAllocSize :=
    Nat.le_of_dvd positive (Nat.dvd_of_mod_eq_zero multiple)
  refine run.invariant (fillPool_spec isConstructed fits positive bound).1 ?_
  intro before request after sound permitted served
  obtain ⟨block, answered, rfl⟩ := Option.map_eq_some_iff.mp served
  exact (getMemory_spec sound permitted answered).isSound

end GlobalPool

/-- If the chunks of the global pools are made of whole cache lines and their
roundings do not overflow, the chunks in use are as they should be, and a global
pool never hands out more than it has. -/
theorem isSound_of_runs (config : Config) :
    (config.cacheLineSize ∣ config.memoryChunkSize → ∀ state,
      Run (step config) (Permitted config) {} state →
        state.IsSound config) ∧
      ∀ others base constructed pool request block,
        GlobalPool.construct config others base = some constructed →
        Run (GlobalPool.serve config) (GlobalPool.Permits config) constructed
          pool →
        pool.Permits config request →
        pool.answer config request = some block → block.IsCarved := by
  constructor
  · intro lines state run
    have known : ∃ entries, Invariant config state entries := by
      apply run.invariant ⟨[], Invariant.initial config⟩
      rintro before action after ⟨entries, invariant⟩ permitted taken
      exact invariant.step lines permitted taken
    obtain ⟨entries, invariant⟩ := known
    exact invariant.isSound
  · intro others base constructed pool request block isConstructed run
      permitted answered
    have sound := GlobalPool.isSound_of_run isConstructed run
    exact (GlobalPool.getMemory_spec sound permitted answered).isCarved

/-- Cache lines of 64 bytes and pages of 4096, on one NUMA node. -/
def oneNode (globalAllocSize memoryChunkSize : Nat)
    (accepted : 0 < memoryChunkSize ∧ 0 < globalAllocSize ∧
      globalAllocSize < sizeLimit ∧ globalAllocSize % memoryChunkSize = 0) :
    Config where
  lineBits := 6
  pageSize := 4096
  globalAllocSize := globalAllocSize
  memoryChunkSize := memoryChunkSize
  numaNodeId := fun _ => 0
  lines := by decide
  pages := by decide
  accepted := accepted

def smallPools : Config :=
  oneNode 1024 256 (by decide)

/-- A chunk is allocated on CPU 0, freed on CPU 1 and allocated there again,
beside a second one. -/
def migratingChunk : List Action :=
  [.construct 4096, .alloc (some 0) 100 0 0, .alloc (some 0) 70 0 0,
    .free (some 1) { chunk := 4096, size := 100 }, .alloc (some 1) 128 0 0]

def firstRequest : Request where
  others := []
  minSize := 700
  first := 0
  second := 8192
  positive := by decide
  bound := by decide

theorem isSound_migratingChunk :
    (∃ state,
      Run (step smallPools) (Permitted smallPools) {} state ∧
        state.live = [⟨4096, 128⟩, ⟨4224, 70⟩] ∧
        state.IsSound smallPools) ∧
      ∃ constructed block,
        GlobalPool.construct smallPools [] 4096 = some constructed ∧
        constructed.answer smallPools firstRequest = some block ∧
        block.chunkSize = 768 ∧ block.IsCarved := by
  obtain ⟨sound, carved⟩ := isSound_of_runs smallPools
  constructor
  · let reused (state : State) : Bool :=
      decide (state.live = [⟨4096, 128⟩, ⟨4224, 70⟩])
    obtain ⟨state, run, holds⟩ :
        ∃ state, Run (step smallPools) (Permitted smallPools) {} state ∧
          reused state = true :=
      exists_run_of_executeAllowed migratingChunk {} reused
        (by decide +kernel)
    exact ⟨state, run, of_decide_eq_true holds,
      sound (by decide) state run⟩
  · refine ⟨_, _, rfl, rfl, by decide +kernel, ?_⟩
    exact carved [] 4096 _ _ firstRequest _ rfl (.refl _)
      (by decide +kernel) rfl

/-- Chunks of a hundred bytes. -/
def oddChunks : Config :=
  oneNode 1000 100 (by decide)

/-- The default sizes. -/
def defaultPools : Config :=
  oneNode (8 * 1024 * 1024) (128 * 1024) (by decide)

/-- A request of nearly all memory. -/
def hugeRequest : Request where
  others := []
  minSize := 2 ^ 64 - 2 ^ 22
  first := 0
  second := 4096 * 4096
  positive := by decide
  bound := by decide

/-- With chunks that are not made of whole cache lines, the second chunk is not
aligned.  With the default sizes, a request of nearly all memory makes the size of
the ranges 0. -/
theorem isSound_fails :
    (¬ ∀ (config : Config) (state : State),
      Run (step config) (fun _ _ => True) {} state →
        state.IsSound config) ∧
      ¬ ∀ (config : Config) (constructed pool : GlobalPool)
        (request : Request) (block : Block),
        GlobalPool.construct config [] 4096 = some constructed →
        Run (GlobalPool.serve config) (fun _ _ => True) constructed pool →
        pool.answer config request = some block → block.IsCarved := by
  constructor
  · intro holds
    let misaligned (state : State) : Bool :=
      decide (state.live = [⟨4196, 64⟩, ⟨4096, 64⟩])
    obtain ⟨state, run, wrong⟩ :
        ∃ state, Run (step oddChunks) (fun _ _ => True) {} state ∧
          misaligned state = true :=
      exists_run_of_executeAllowed
        [.construct 4096, .alloc (some 0) 64 0 0, .alloc (some 0) 64 0 0] {}
        misaligned (by decide +kernel)
    have live := of_decide_eq_true wrong
    have aligned := (holds oddChunks state run).aligned ⟨4196, 64⟩ (by
      rw [live]
      exact List.mem_cons_self)
    exact absurd aligned (by decide)
  · intro holds
    have carved := holds defaultPools _ _ hugeRequest _ rfl (.refl _) rfl
    obtain ⟨range, last, -, within, -⟩ := carved.within
    have isEmpty : some range = some ⟨4096 * 4096, 0⟩ :=
      last.symm.trans (by decide +kernel)
    cases isEmpty
    exact absurd within.2 (by decide +kernel)

end Nanos6.PoolAllocator
