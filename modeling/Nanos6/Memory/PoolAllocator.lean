import Nanos6.Foundation.LabelledRun
import Nanos6.Foundation.Memory

/-!
# The pool allocator

There is a global pool for each NUMA node, which gets large ranges of memory and
hands out blocks of them.  Each CPU has a pool for each size, in cache lines; it
cuts the blocks of the global pool of its node into chunks.  The chunks that are
free are linked through their first bytes.  A chunk that is freed goes to the pool
of the CPU that frees it.  Threads without a CPU share pools of their own.

Sizes are those of `size_t` and wrap around.  Which ranges the system returns, and
what the program writes into its chunks, is told by the actions.
-/

namespace Nanos6.PoolAllocator

open Foundation

/-- The values of `size_t`. -/
abbrev sizeLimit : Nat := 2 ^ 64

abbrev CPU := Nat

structure Config where
  /-- A cache line has so many bits of address. -/
  lineBits : Nat
  pageSize : Nat
  /-- `NANOS6_GLOBAL_ALLOC_SIZE`. -/
  globalAllocSize : Nat
  /-- `NANOS6_ALLOCATOR_CHUNK_SIZE`. -/
  memoryChunkSize : Nat
  /-- `_NUMANodeId` of a CPU. -/
  numaNodeId : CPU → Nat
  /-- A pointer fits into a cache line, and a cache line into a page. -/
  lines : 3 ≤ lineBits ∧ lineBits < 64
  pages : 2 ^ lineBits ∣ pageSize
  /-- Sizes that the constructor of the global pool accepts, and that are not
  0. -/
  accepted : 0 < memoryChunkSize ∧ 0 < globalAllocSize ∧
    globalAllocSize < sizeLimit ∧ globalAllocSize % memoryChunkSize = 0

def Config.cacheLineSize (config : Config) : Nat :=
  2 ^ config.lineBits

/-! ### The global pools -/

structure GlobalPool where
  globalAllocSize : Nat
  memoryChunkSize : Nat
  curMemoryChunk : Nat := 0
  curAvailable : Nat := 0
  /-- The ranges obtained so far.  The source keeps only their addresses. -/
  oldMemoryChunks : List Range := []
  deriving DecidableEq

/-- `((value + multiple - 1) / multiple) * multiple`. -/
def roundUp (value multiple : Nat) : Nat :=
  (value + multiple + (sizeLimit - 1)) % sizeLimit / multiple * multiple

/-- The system returns fresh memory in whole pages. -/
def isFresh (config : Config) (taken : List Range) (range : Range) : Bool :=
  range.base % config.pageSize == 0 && 0 < range.base &&
    range.limit < sizeLimit && taken.all range.isApart

namespace GlobalPool

/-- The range at `base` becomes the current one.  `others` are the ranges of the
other global pools. -/
def fillPool (config : Config) (others : List Range) (pool : GlobalPool)
    (base : Nat) : Option GlobalPool :=
  let range : Range := ⟨base, pool.globalAllocSize⟩
  if isFresh config (others ++ pool.oldMemoryChunks) range then
    some
      { pool with
        curAvailable := pool.globalAllocSize
        curMemoryChunk := base
        oldMemoryChunks := pool.oldMemoryChunks ++ [range] }
  else none

/-- All sizes are made to fit again. -/
def fitAllocSize (pool : GlobalPool) : GlobalPool :=
  { pool with
    globalAllocSize := roundUp pool.globalAllocSize pool.memoryChunkSize }

/-- The first part of `getMemory`: there is a chunk left. -/
def ensureChunk (config : Config) (others : List Range) (pool : GlobalPool)
    (base : Nat) : Option GlobalPool :=
  if pool.curAvailable < pool.memoryChunkSize then
    if pool.curAvailable ≠ 0 then
      pool.fitAllocSize.fillPool config others base
    else pool.fillPool config others base
  else some pool

/-- The second part: the size of the chunks is raised to that of the request.  A
chunk size of 0 is a division by 0. -/
def raiseChunkSize (config : Config) (others : List Range)
    (pool : GlobalPool) (minSize base : Nat) : Option GlobalPool :=
  if pool.memoryChunkSize < minSize then
    if pool.memoryChunkSize = 0 then none
    else
      let raised :=
        { pool with memoryChunkSize := roundUp minSize pool.memoryChunkSize }
      if raised.curAvailable < raised.memoryChunkSize then
        raised.fitAllocSize.fillPool config others base
      else some raised
  else some pool

/-- The last part: a chunk is cut off. -/
def carve (pool : GlobalPool) : GlobalPool :=
  { pool with
    curAvailable :=
      (pool.curAvailable + (sizeLimit - pool.memoryChunkSize)) % sizeLimit
    curMemoryChunk :=
      (pool.curMemoryChunk + pool.memoryChunkSize) % sizeLimit }

end GlobalPool

/-- A block, and the pool after it has been handed out. -/
structure Block where
  pool : GlobalPool
  address : Nat
  chunkSize : Nat
  deriving DecidableEq

namespace GlobalPool

/-- `first` and `second` are the addresses that the system returns. -/
def getMemory (config : Config) (others : List Range) (pool : GlobalPool)
    (minSize first second : Nat) : Option Block :=
  (pool.ensureChunk config others first).bind fun ensured =>
    (ensured.raiseChunkSize config others minSize second).map fun raised =>
      { pool := raised.carve
        address := raised.curMemoryChunk
        chunkSize := raised.memoryChunkSize }

/-- `MemoryPoolGlobal::MemoryPoolGlobal`. -/
def construct (config : Config) (others : List Range) (base : Nat) :
    Option GlobalPool :=
  GlobalPool.fillPool config others
    { globalAllocSize := config.globalAllocSize
      memoryChunkSize := config.memoryChunkSize } base

end GlobalPool

/-! ### The pools of the CPUs -/

structure MemoryPool where
  /-- The CPU, or none for the threads without one. -/
  place : Option CPU
  cacheLines : Nat
  /-- The NUMA node of the global pool. -/
  globalAllocator : Nat
  chunkSize : Nat
  topChunk : Nat := 0
  deriving DecidableEq

/-- A chunk in use, with the size it was allocated for. -/
structure Allocation where
  chunk : Nat
  size : Nat
  deriving DecidableEq

structure State where
  globalMemoryPool : List GlobalPool := []
  /-- `_localMemoryPool` and `_externalMemoryPool`. -/
  memoryPools : List MemoryPool := []
  /-- The pointer that is stored at an address. -/
  memory : Nat → Nat := fun _ => 0
  /-- Not in the source: the chunks in use. -/
  live : List Allocation := []

/-- `(size + cacheLineSize - 1) & ~(cacheLineSize - 1)`. -/
def Config.roundedSize (config : Config) (size : Nat) : Nat :=
  (size + (config.cacheLineSize - 1)) % sizeLimit &&&
    (sizeLimit - 1 - (config.cacheLineSize - 1))

def Config.cacheLines (config : Config) (size : Nat) : Nat :=
  config.roundedSize size / config.cacheLineSize

/-- The chunks after `previous` are linked to each other, from the one with the
index given on. -/
def linkChunks (top chunkSize : Nat) (memory : Nat → Nat)
    (previous index : Nat) : Nat → Nat → Nat
  | 0 => Function.update memory previous 0
  | count + 1 =>
      let next := top + index * chunkSize
      linkChunks top chunkSize (Function.update memory previous next) next
        (index + 1) count

namespace State

/-- The ranges of all global pools but one. -/
def othersRanges (state : State) (node : Nat) : List Range :=
  (state.globalMemoryPool.eraseIdx node).flatMap GlobalPool.oldMemoryChunks

def findPool (config : Config) (state : State) (place : Option CPU)
    (size : Nat) : Option Nat :=
  state.memoryPools.findIdx? fun pool =>
    pool.place == place && pool.cacheLines == config.cacheLines size

def newPool (config : Config) (place : Option CPU) (size : Nat) :
    MemoryPool where
  place := place
  cacheLines := config.cacheLines size
  globalAllocator := place.elim 0 config.numaNodeId
  chunkSize := config.roundedSize size

/-- The pool for the size, which is created if there is none. -/
def getPool (config : Config) (state : State) (place : Option CPU)
    (size : Nat) : State × Nat :=
  match state.findPool config place size with
  | some index => (state, index)
  | none =>
      ({ state with
        memoryPools := state.memoryPools ++ [newPool config place size] },
        state.memoryPools.length)

/-- `MemoryPool::fillPool`.  A chunk size of 0 is a division by 0, and a block
that is too small is a fatal error. -/
def fillPool (config : Config) (state : State) (index : Nat)
    (pool : MemoryPool) (first second : Nat) : Option State :=
  state.globalMemoryPool[pool.globalAllocator]?.bind fun global =>
    (global.getMemory config (state.othersRanges pool.globalAllocator)
      pool.chunkSize first second).bind fun block =>
        let numChunks := block.chunkSize / pool.chunkSize
        if pool.chunkSize = 0 ∨ numChunks = 0 then none
        else some
          { state with
            globalMemoryPool :=
              replaceAt state.globalMemoryPool pool.globalAllocator
                [block.pool]
            memoryPools :=
              replaceAt state.memoryPools index
                [{ pool with topChunk := block.address }]
            memory :=
              linkChunks block.address pool.chunkSize state.memory
                block.address 1 (numChunks - 1) }

/-- The top chunk of the pool is taken. -/
def popChunk (state : State) (index size : Nat) : Option State :=
  state.memoryPools[index]?.map fun pool =>
    { state with
      memoryPools :=
        replaceAt state.memoryPools index
          [{ pool with topChunk := state.memory pool.topChunk }]
      live := { chunk := pool.topChunk, size := size } :: state.live }

def getChunk (config : Config) (state : State) (index size first second : Nat) :
    Option State :=
  state.memoryPools[index]?.bind fun pool =>
    if pool.topChunk = 0 then
      (state.fillPool config index pool first second).bind fun filled =>
        filled.popChunk index size
    else state.popChunk index size

def returnChunk (state : State) (index : Nat) (allocation : Allocation) :
    Option State :=
  state.memoryPools[index]?.map fun pool =>
    { state with
      memoryPools :=
        replaceAt state.memoryPools index
          [{ pool with topChunk := allocation.chunk }]
      memory := Function.update state.memory allocation.chunk pool.topChunk
      live := state.live.erase allocation }

/-- The program writes into a chunk: the pointers change that have a byte in
it. -/
def write (state : State) (allocation : Allocation) (contents : Nat → Nat) :
    State :=
  { state with
    memory := fun address =>
      if address < allocation.chunk + allocation.size ∧
          allocation.chunk < address + 8 then contents address
      else state.memory address }

end State

inductive Action where
  /-- A global pool is constructed for the next NUMA node. -/
  | construct (base : Nat)
  | alloc (place : Option CPU) (size first second : Nat)
  | free (place : Option CPU) (allocation : Allocation)
  | write (allocation : Allocation) (contents : Nat → Nat)

def step (config : Config) (state : State) : Action → Option State
  | .construct base =>
      let taken :=
        state.globalMemoryPool.flatMap GlobalPool.oldMemoryChunks
      (GlobalPool.construct config taken base).map fun pool =>
        { state with globalMemoryPool := state.globalMemoryPool ++ [pool] }
  | .alloc place size first second =>
      if size < sizeLimit then
        let (found, index) := state.getPool config place size
        found.getChunk config index size first second
      else none
  | .free place allocation =>
      if allocation ∈ state.live then
        let (found, index) := state.getPool config place allocation.size
        found.returnChunk index allocation
      else none
  | .write allocation contents =>
      if allocation ∈ state.live then some (state.write allocation contents)
      else none

/-! ### Overflow -/

/-- The size of the ranges can be rounded up to that of the chunks. -/
def GlobalPool.canFit (pool : GlobalPool) : Bool :=
  pool.globalAllocSize + pool.memoryChunkSize ≤ sizeLimit

/-- The roundings of `getMemory` do not overflow. -/
def GlobalPool.permits (config : Config) (others : List Range)
    (pool : GlobalPool) (minSize first : Nat) : Bool :=
  (!decide (pool.curAvailable < pool.memoryChunkSize ∧
      pool.curAvailable ≠ 0) || pool.canFit) &&
    (pool.ensureChunk config others first).all fun ensured =>
      let raised :=
        { ensured with
          memoryChunkSize := roundUp minSize ensured.memoryChunkSize }
      !decide (ensured.memoryChunkSize < minSize ∧
        raised.curAvailable < raised.memoryChunkSize) || raised.canFit

/-- The same of an allocation that takes memory from a global pool. -/
def permits (config : Config) (state : State) : Action → Bool
  | .alloc place size first _ =>
      let (found, index) := state.getPool config place size
      found.memoryPools[index]?.all fun pool =>
        pool.topChunk != 0 ||
          found.globalMemoryPool[pool.globalAllocator]?.all fun global =>
            global.permits config (found.othersRanges pool.globalAllocator)
              pool.chunkSize first
  | _ => true

def Permitted (config : Config) (state : State) (action : Action) : Prop :=
  permits config state action = true

instance (config : Config) (state : State) (action : Action) :
    Decidable (Permitted config state action) :=
  inferInstanceAs (Decidable (permits config state action = true))

end Nanos6.PoolAllocator
