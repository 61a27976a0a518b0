import Nanos6.Dependencies.Upgrades
import Nanos6.Foundation.LabelledRun

/-!
# Private storage of reductions

A `ReductionInfo` has a copy of its region for each CPU.  An access allocates one
when it is linked, unless all that come before it have the same, which it then
receives.  A task asks for its storage with the region of a declaration, and the
address is taken from the `ReductionInfo` of one of the accesses in the region: the
last one.  What a CPU writes there is combined from the `ReductionInfo` of the access
of each byte.

A declaration may be held by several accesses, if others of the same task overlap it.
-/

namespace Nanos6.ReductionStorage

open Foundation

structure Config where
  /-- `CPUManager::getTotalCPUs()`. -/
  nCpus : Nat
  cacheLineSize : Nat
  positive : 0 < nCpus ∧ 0 < cacheLineSize

/-- The region and the storage of a `ReductionInfo`. -/
structure Allocation where
  region : DataAccessRegion
  storage : Nat
  deriving DecidableEq, Repr

def Allocation.size (allocation : Allocation) : Nat :=
  allocation.region.stop - allocation.region.start

namespace Config

def paddedRegionSize (config : Config) (allocation : Allocation) : Nat :=
  (allocation.size + config.cacheLineSize - 1) / config.cacheLineSize *
    config.cacheLineSize

/-- All the memory that is mapped for the storage. -/
def mapped (config : Config) (allocation : Allocation) : Interval :=
  ⟨allocation.storage,
    allocation.storage + config.paddedRegionSize allocation * config.nCpus⟩

def cpuStorage (config : Config) (allocation : Allocation)
    (virtualCpuId : Nat) : Nat :=
  allocation.storage + config.paddedRegionSize allocation * virtualCpuId

def getCPUPrivateStorage (config : Config) (allocation : Allocation)
    (virtualCpuId : Nat) : Interval :=
  ⟨config.cpuStorage allocation virtualCpuId,
    config.cpuStorage allocation virtualCpuId + allocation.size⟩

/-- Where `combineRegion` reads the copy that the CPU has of a byte of the
region. -/
def combineRegion (config : Config) (allocation : Allocation)
    (region : DataAccessRegion) (virtualCpuId byte : Nat) : Int :=
  config.cpuStorage allocation virtualCpuId +
    ((region.start : Int) - allocation.region.start) +
      ((byte : Int) - region.start)

end Config

structure State where
  accesses : TaskId → IntervalMap DataAccess := fun _ => .empty
  /-- Every `ReductionInfo`; its identity is its position. -/
  allocations : List Allocation := []
  /-- The declarations of the tasks, which are not kept in the source. -/
  declarations : TaskId → List AccessDeclaration := fun _ => []

namespace State

/-- The `ReductionInfo` of an access. -/
def allocation (state : State) (access : DataAccess) : Option Allocation :=
  access.reductionInfo.bind fun info => state.allocations[info.identity]?

def setAccesses (state : State) (task : TaskId)
    (accesses : IntervalMap DataAccess) : State :=
  { state with accesses := Function.update state.accesses task accesses }

/-! ### Linking -/

/-- What the bottom map of the parent has for a part of an access. -/
inductive Match where
  | previous (typeAndOperatorIndex : Option Nat)
      (reductionInfo : Option ReductionInfo)
  | missing
  deriving DecidableEq, Repr

/-- The access needs a `ReductionInfo` of its own. -/
def allocatesReductionInfo (access : DataAccess) :
    Option ReductionInfo → List Match → Bool
  | _, [] => false
  | _, .missing :: _ => true
  | previousReductionInfo, .previous index reductionInfo :: rest =>
      if index ≠ access.reductionTypeAndOperatorIndex then true
      else
        match previousReductionInfo with
        | none => allocatesReductionInfo access reductionInfo rest
        | some previous =>
            if reductionInfo ≠ some previous then true
            else allocatesReductionInfo access previousReductionInfo rest

/-- The storage is mapped where no other one is. -/
def isFree (config : Config) (state : State) (allocation : Allocation) :
    Bool :=
  state.allocations.all fun other =>
    !decide ((config.mapped other).Meets (config.mapped allocation))

/-- `replaceMatchingInBottomMapLinkAndPropagate` for the access that starts at an
address, with the address of the storage if one is mapped. -/
def link (config : Config) (state : State) (task : TaskId) (start : Nat)
    (previous : List Match) (storage : Nat) : Option State :=
  match (state.accesses task).pieces.find? fun piece =>
      piece.interval.start == start with
  | none => none
  | some piece =>
      let access := { piece.value with registered := true }
      let allocation : Allocation := ⟨piece.interval, storage⟩
      if piece.value.registered then none
      else if access.type = .reduction ∧
          allocatesReductionInfo access none previous then
        if state.isFree config allocation ∧ access.reductionInfo = none then
          let info : ReductionInfo :=
            ⟨state.allocations.length,
              access.reductionTypeAndOperatorIndex.getD 0⟩
          some
            { state.setAccesses task
                ((state.accesses task).replace piece piece.interval
                  (some
                    { access with
                      reductionInfo := some info
                      allocatedReductionInfo := true })) with
              allocations := state.allocations ++ [allocation] }
        else none
      else
        some (state.setAccesses task
          ((state.accesses task).replace piece piece.interval
            (some access)))

/-! ### Updates -/

/-- All accesses in the region have been linked. -/
def isLinked (state : State) (task : TaskId) (region : DataAccessRegion) :
    Bool :=
  (state.accesses task).pieces.all fun piece =>
    !decide (piece.interval.Meets region) || piece.value.registered

def fragment (state : State) (task : TaskId) (region : DataAccessRegion) :
    Option State :=
  if state.isLinked task region then
    some (state.setAccesses task ((state.accesses task).cut region))
  else none

/-- A compatible `ReductionInfo` is received if there is none yet. -/
def receive (info : ReductionInfo) (access : DataAccess) : DataAccess :=
  if access.type = .reduction ∧ access.reductionInfo = none ∧
      access.reductionTypeAndOperatorIndex =
        some info.typeAndOperatorIndex then
    { access with reductionInfo := some info }
  else access

/-- The `ReductionInfo` of an access is passed to the accesses of another task in
a part of its region. -/
def propagate (state : State) (source target : TaskId)
    (region : DataAccessRegion) : Option State :=
  match (state.accesses source).pieces.find? fun piece =>
      decide (piece.interval.start ≤ region.start ∧
        region.stop ≤ piece.interval.stop) with
  | none => none
  | some piece =>
      match piece.value.reductionInfo with
      | none => none
      | some info =>
          if state.isLinked target region then
            some (state.setAccesses target
              (((state.accesses target).cut region).mapMeeting region
                (receive info)))
          else none

/-! ### The storage of a task -/

/-- The accesses in the region, in the order of their addresses. -/
def intersecting (state : State) (task : TaskId)
    (region : DataAccessRegion) : List (Piece DataAccess) :=
  (state.accesses task).pieces.filter fun piece =>
    decide (piece.interval.Meets region)

/-- `firstAccess` after the accesses in the region. -/
def firstAccess : Option (Piece DataAccess) → List (Piece DataAccess) →
    Option (Piece DataAccess)
  | first, [] => first
  | first, piece :: rest =>
      if piece.value.type ≠ .reduction then first
      else
        match first with
        | none => firstAccess (some piece) rest
        | some access =>
            if access.interval.start < piece.interval.start then
              firstAccess (some piece) rest
            else firstAccess (some access) rest

/-- The part of the region before the first access that is not a reduction. -/
def visited (state : State) (task : TaskId) (region : DataAccessRegion) :
    DataAccessRegion :=
  match (state.intersecting task region).find? fun piece =>
      piece.value.type != .reduction with
  | none => region
  | some piece => ⟨region.start, piece.interval.start⟩

def setReductionCpu (cpuId : Nat) (access : DataAccess) : DataAccess :=
  { access with
    reductionCpuSet := some (insert cpuId (access.reductionCpuSet.getD ∅)) }

/-- The accesses after `nanos6_get_reduction_storage1`. -/
def getReductionStorage (state : State) (task : TaskId)
    (region : DataAccessRegion) (cpuId : Nat) : State :=
  state.setAccesses task
    ((state.accesses task).mapMeeting (state.visited task region)
      (setReductionCpu cpuId))

/-- The address that it returns. -/
def storageAddress (config : Config) (state : State) (task : TaskId)
    (region : DataAccessRegion) (cpuId : Nat) : Int :=
  match firstAccess none (state.intersecting task region) with
  | none => region.start
  | some piece =>
      match state.allocation piece.value with
      | none => region.start
      | some allocation =>
          config.cpuStorage allocation cpuId +
            ((region.start : Int) - allocation.region.start)

end State

inductive Action where
  | register (task : TaskId) (declarations : List AccessDeclaration)
  | link (task : TaskId) (start : Nat) (previous : List State.Match)
      (storage : Nat)
  | fragment (task : TaskId) (region : DataAccessRegion)
  | propagate (source target : TaskId) (region : DataAccessRegion)
  | getReductionStorage (task : TaskId) (region : DataAccessRegion)
      (cpuId : Nat)
  deriving DecidableEq

def step (config : Config) (state : State) : Action → Option State
  | .register task declarations =>
      if (state.accesses task).pieces.isEmpty then
        (registerDepinfo task declarations).map fun accesses =>
          { state.setAccesses task accesses with
            declarations :=
              Function.update state.declarations task declarations }
      else none
  | .link task start previous storage =>
      state.link config task start previous storage
  | .fragment task region => state.fragment task region
  | .propagate source target region => state.propagate source target region
  | .getReductionStorage task region cpuId =>
      some (state.getReductionStorage task region cpuId)

end Nanos6.ReductionStorage
