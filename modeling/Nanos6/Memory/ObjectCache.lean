import Mathlib.Algebra.Order.Ring.Int
import Nanos6.Foundation.Bags
import Nanos6.Foundation.LabelledRun
import Nanos6.Foundation.Memory

/-!
# Object caches

Each CPU has a cache of objects with a pool for each NUMA node, and the caches
share a pool for each NUMA node.  An object is taken from the pool that the cache
has for its own node.  If that is empty it is filled from the shared pool, or with
objects in new memory, twice as many as the last time.  A deleted object goes to
the pool for the node where its memory is; the objects of other nodes are passed on
to the shared pool when there are 64 of them.

The caches are created in the order of the CPUs of the machine and are found by the
virtual identifier, which only the CPUs in the affinity mask of the process have.
-/

namespace Nanos6.ObjectCache

open Foundation

/-- The values of `size_t`. -/
abbrev sizeLimit : Nat := 2 ^ 64

structure CPU where
  systemCPUId : Nat
  numaNodeId : Nat
  deriving DecidableEq

structure Config where
  numaNodeCount : Nat
  /-- The CPUs of the machine, in the order of `HostInfo`. -/
  computePlaces : List CPU
  processCPUMask : Nat → Bool
  /-- `sizeof(T)`. -/
  objectSize : Nat
  size : 0 < objectSize ∧ 4 * objectSize < sizeLimit
  nodes : 0 < numaNodeCount ∧
    ∀ cpu ∈ computePlaces, cpu.numaNodeId < numaNodeCount

/-! ### The numbers of the CPUs -/

/-- What `CPUManager::preinitialize` sets up. -/
structure Numbering where
  totalCPUs : Nat := 0
  /-- `_cpus`, by the virtual identifiers. -/
  cpus : List CPU := []
  deriving DecidableEq

/-- One iteration of the loop over the CPUs of the machine. -/
def Numbering.add (mask : Nat → Bool) (numbering : Numbering) (cpu : CPU) :
    Numbering :=
  if mask cpu.systemCPUId then
    { totalCPUs := numbering.totalCPUs + 1
      cpus := numbering.cpus ++ [cpu] }
  else numbering

def Config.preinitialize (config : Config) : Numbering :=
  config.computePlaces.foldl (Numbering.add config.processCPUMask) {}

/-- The CPU with a virtual identifier. -/
def Config.cpu (config : Config) (virtualCPUId : Nat) : Option CPU :=
  config.preinitialize.cpus[virtualCPUId]?

/-! ### Caches -/

/-- Where a call is made: on the CPU with a virtual identifier, or by a thread
without a CPU. -/
abbrev Place := Option Nat

inductive Pool where
  /-- `_available` of the cache that is found from the place, for a node. -/
  | available (cache : Place) (node : Nat)
  /-- `_NUMAPools`. -/
  | numa (node : Nat)
  deriving DecidableEq

/-- Memory from the allocator, on a NUMA node. -/
structure Memory where
  range : Range
  node : Nat
  deriving DecidableEq

structure State where
  allocationSize : Place → Nat := fun _ => 1
  pool : Pool → List Nat := fun _ => []
  /-- The fields below are not in the source.  The objects in use. -/
  live : List Nat := []
  memories : List Memory := []
  objects : List Nat := []
  /-- The allocation sizes for which memory has been requested. -/
  requests : List Nat := []
  /-- The front of an empty pool has been taken. -/
  tookFromEmpty : Bool := false

/-- `_NUMANodeId` of the cache that is found from the place. -/
def Config.numaNodeId (config : Config) : Place → Nat
  | none => 0
  | some virtualCPUId =>
      (config.computePlaces[virtualCPUId]?.map CPU.numaNodeId).getD 0

/-- The NUMA node of the CPU itself; that of the global pool for a thread without
a CPU. -/
def Config.homeNode (config : Config) : Place → Nat
  | none => 0
  | some virtualCPUId =>
      ((config.cpu virtualCPUId).map CPU.numaNodeId).getD 0

namespace State

def setPool (state : State) (pool : Pool) (objects : List Nat) : State :=
  { state with pool := Function.update state.pool pool objects }

@[simp]
theorem pool_setPool_self (state : State) (pool : Pool)
    (objects : List Nat) : (state.setPool pool objects).pool pool = objects :=
  Function.update_self ..

theorem pool_setPool_of_ne (state : State) {pool other : Pool}
    (objects : List Nat) (differ : other ≠ pool) :
    (state.setPool pool objects).pool other = state.pool other :=
  Function.update_of_ne differ ..

/-- `VirtualMemoryManagement::findNUMA`. -/
def findNUMA (config : Config) (state : State) (object : Nat) : Nat :=
  ((state.memories.find? fun memory =>
    decide (memory.range.Contains object)).map Memory.node).getD
      config.numaNodeCount

/-- `fillCPUPool`, with the number of objects it has moved. -/
def fillCPUPool (state : State) (node : Nat) (localPool : Pool)
    (requestedObjects : Nat) : State × Nat :=
  let numaPool := state.pool (.numa node)
  let nrObjects := min requestedObjects numaPool.length
  ((state.setPool localPool
    ((numaPool.take nrObjects).reverse ++ state.pool localPool)).setPool
      (.numa node) (numaPool.drop nrObjects), nrObjects)

/-- New memory from the allocator, cut into objects. -/
def allocate (config : Config) (state : State) (localPool : Pool)
    (allocationSize : Nat) (memory : Memory) : State :=
  let objects :=
    chunksFrom memory.range.base config.objectSize allocationSize
  { state.setPool localPool (state.pool localPool ++ objects) with
    memories := memory :: state.memories
    objects := objects ++ state.objects
    requests := allocationSize :: state.requests }

/-- The allocator returns fresh memory on some node. -/
def isFresh (config : Config) (state : State) (memory : Memory)
    (size : Nat) : Bool :=
  memory.range.size == size && memory.range.limit < sizeLimit &&
    memory.node ≤ config.numaNodeCount &&
    state.memories.all fun other => memory.range.isApart other.range

/-- The pool of the cache for its own node gets objects.  The number of objects
moved is returned as an `int`. -/
def refill (config : Config) (state : State) (place : Place)
    (memory : Memory) : Option State :=
  let localPool := Pool.available place (config.numaNodeId place)
  let allocationSize := state.allocationSize place * 2 % sizeLimit
  let (filled, allocated) :=
    { state with
      allocationSize :=
        Function.update state.allocationSize place
          allocationSize }.fillCPUPool (config.numaNodeId place) localPool
            allocationSize
  if allocated % 2 ^ 32 = 0 then
    if filled.isFresh config memory
        (allocationSize * config.objectSize % sizeLimit) then
      some (filled.allocate config localPool allocationSize memory)
    else none
  else some filled

/-- The front of the pool is taken. -/
def takeFront (state : State) (localPool : Pool) : State :=
  match state.pool localPool with
  | [] => { state with tookFromEmpty := true }
  | object :: rest =>
      { state.setPool localPool rest with live := object :: state.live }

def newObject (config : Config) (state : State) (place : Place)
    (memory : Memory) : Option State :=
  let localPool := Pool.available place (config.numaNodeId place)
  if state.pool localPool = [] then
    (state.refill config place memory).map fun filled =>
      filled.takeFront localPool
  else some (state.takeFront localPool)

/-- `returnObjects`. -/
def returnObjects (state : State) (node : Nat) (source : Pool) : State :=
  (state.setPool (.numa node)
    (state.pool (.numa node) ++ state.pool source)).setPool source []

def deleteObject (config : Config) (state : State) (place : Place)
    (object : Nat) : State :=
  let node := state.findNUMA config object
  let available := Pool.available place node
  let deleted : State :=
    { state.setPool available (object :: state.pool available) with
      live := state.live.erase object }
  if node ≠ config.numaNodeId place ∧
      (deleted.pool available).length = 64 then
    deleted.returnObjects node available
  else deleted

end State

/-- The place exists. -/
def Config.isPlace (config : Config) : Place → Bool
  | none => true
  | some virtualCPUId => (config.cpu virtualCPUId).isSome

inductive Action where
  /-- With the memory that the allocator returns if it is called. -/
  | newObject (place : Place) (memory : Memory)
  | deleteObject (place : Place) (object : Nat)
  deriving DecidableEq

def step (config : Config) (state : State) : Action → Option State
  | .newObject place memory =>
      if config.isPlace place then state.newObject config place memory
      else none
  | .deleteObject place object =>
      if config.isPlace place ∧ object ∈ state.live then
        some (state.deleteObject config place object)
      else none

/-- Memory is requested for the next object at this place. -/
def State.allocates (config : Config) (state : State) (place : Place) : Bool :=
  let node := config.numaNodeId place
  (state.pool (.available place node)).isEmpty &&
    min (state.allocationSize place * 2 % sizeLimit)
      (state.pool (.numa node)).length % 2 ^ 32 == 0

/-- The number of bytes requested does not overflow. -/
def permits (config : Config) (state : State) : Action → Bool
  | .newObject place _ =>
      let allocationSize := state.allocationSize place * 2 % sizeLimit
      !state.allocates config place ||
        (0 < allocationSize && allocationSize * config.objectSize < sizeLimit)
  | .deleteObject _ _ => true

def Permitted (config : Config) (state : State) (action : Action) : Prop :=
  permits config state action = true

instance (config : Config) (state : State) (action : Action) :
    Decidable (Permitted config state action) :=
  inferInstanceAs (Decidable (permits config state action = true))

end Nanos6.ObjectCache
