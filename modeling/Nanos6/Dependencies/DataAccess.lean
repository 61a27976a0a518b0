import Mathlib.Data.Finset.Basic
import Nanos6.Foundation.IntervalMap

/-!
# Data accesses

The objects that the dependency system keeps for each task, with their status
bits.  Three maps of a task hold them: its accesses, the fragments that stand
for an access inside the task, and the taskwait fragments (with the top-level
sinks).  An object carries no region of its own here: the region is the
interval under which a map holds the object.
-/

namespace Nanos6

open Foundation

abbrev TaskId := Nat

abbrev DataAccessRegion := Foundation.Interval

inductive DataAccessType where
  | noAccess
  | read
  | write
  | readwrite
  | concurrent
  | commutative
  | reduction
  deriving DecidableEq, Repr

inductive DataAccessObjectType where
  | access
  | fragment
  | taskwait
  | topLevelSink
  deriving DecidableEq, Repr

/-- The maps of a task that hold data access objects. -/
inductive AccessMap where
  | accesses
  | accessFragments
  | taskwaitFragments
  deriving DecidableEq, Repr

/-- The map in which the objects of a type are kept. -/
def DataAccessObjectType.map : DataAccessObjectType → AccessMap
  | .access => .accesses
  | .fragment => .accessFragments
  | .taskwait => .taskwaitFragments
  | .topLevelSink => .taskwaitFragments

/-- The objects of one type of one task. -/
structure DataAccessLink where
  task : TaskId
  objectType : DataAccessObjectType
  deriving DecidableEq, Repr

/-- The private storage of a reduction, known by its identity and the index of
its type and operator. -/
structure ReductionInfo where
  identity : Nat
  typeAndOperatorIndex : Nat
  deriving DecidableEq, Repr

/-- A set of CPUs, absent when the source keeps a bitset of size zero. -/
abbrev CPUSet := Option (Finset Nat)

/-- The union that the source computes with `|=`. -/
def CPUSet.union (first second : CPUSet) : CPUSet :=
  match first, second with
  | some left, some right => some (left ∪ right)
  | some left, none => some left
  | none, _ => none

/-- `MAX_SYMBOLS`, the size of the bitset. -/
def maxSymbols : Nat := 64

structure DataAccess where
  objectType : DataAccessObjectType
  type : DataAccessType
  weak : Bool
  originator : TaskId
  reductionTypeAndOperatorIndex : Option Nat := none
  symbols : Finset (Fin maxSymbols) := ∅
  next : Option DataAccessLink := none
  reductionInfo : Option ReductionInfo := none
  previousReductionInfo : Option ReductionInfo := none
  reductionCpuSet : CPUSet := none
  previousReductionCpuSet : CPUSet := none
  registered : Bool := false
  complete : Bool := false
  readSatisfied : Bool := false
  writeSatisfied : Bool := false
  concurrentSatisfied : Bool := false
  receivedReductionInfo : Bool := false
  allocatedReductionInfo : Bool := false
  receivedReductionCpuSet : Bool := false
  readSatisfiabilityPropagationInhibited : Bool := false
  concurrentSatisfiabilityPropagationInhibited : Bool := false
  reductionInfoPropagationInhibited : Bool := false
  hasSubaccesses : Bool := false
  inBottomMap : Bool := false
  topmost : Bool := false
  topLevel : Bool := false
  hasBeenDiscounted : Bool := false
  deriving DecidableEq

namespace DataAccess

def hasNext (access : DataAccess) : Bool :=
  access.next.isSome

def canPropagateReadSatisfiability (access : DataAccess) : Bool :=
  !access.readSatisfiabilityPropagationInhibited

def canPropagateConcurrentSatisfiability (access : DataAccess) : Bool :=
  !access.concurrentSatisfiabilityPropagationInhibited

def canPropagateReductionInfo (access : DataAccess) : Bool :=
  !access.reductionInfoPropagationInhibited

/-- The access has a ReductionInfo, of its own or received. -/
def hasReductionInfo (access : DataAccess) : Bool :=
  access.receivedReductionInfo || access.allocatedReductionInfo

/-- The previous reduction, if there is one, has handed over its structures. -/
def receivedReductionStructures (access : DataAccess) : Bool :=
  access.receivedReductionInfo &&
    (access.previousReductionInfo.isNone || access.receivedReductionCpuSet)

def satisfied (access : DataAccess) : Bool :=
  match access.type with
  | .read => access.readSatisfied && access.receivedReductionStructures
  | .concurrent =>
      access.concurrentSatisfied && access.receivedReductionStructures
  | .reduction =>
      access.receivedReductionInfo &&
        (access.writeSatisfied ||
          (access.reductionInfo.isSome &&
            access.reductionInfo == access.previousReductionInfo))
  | _ =>
      access.readSatisfied && access.writeSatisfied &&
        access.receivedReductionStructures

end DataAccess

/-- A change of an object together with the assertion that the source makes
when it performs the change. -/
structure Setter where
  apply : DataAccess → DataAccess
  assertion : DataAccess → Bool

namespace Setter

/-- Change nothing. -/
def skip : Setter where
  apply := id
  assertion := fun _ => true

/-- One change after another. -/
def andThen (first second : Setter) : Setter where
  apply := fun access => second.apply (first.apply access)
  assertion := fun access =>
    first.assertion access && second.assertion (first.apply access)

/-- A change made only under a condition. -/
def onlyIf (condition : Bool) (setter : Setter) : Setter :=
  if condition then setter else skip

def setRegistered : Setter where
  apply := fun access => { access with registered := true }
  assertion := fun access => !access.registered

def setComplete : Setter where
  apply := fun access => { access with complete := true }
  assertion := fun access => !access.complete

def setReadSatisfied : Setter where
  apply := fun access => { access with readSatisfied := true }
  assertion := fun access => !access.readSatisfied

def setWriteSatisfied : Setter where
  apply := fun access => { access with writeSatisfied := true }
  assertion := fun access => !access.writeSatisfied

def setConcurrentSatisfied : Setter where
  apply := fun access => { access with concurrentSatisfied := true }
  assertion := fun access => !access.concurrentSatisfied

def setReceivedReductionInfo : Setter where
  apply := fun access => { access with receivedReductionInfo := true }
  assertion := fun access => !access.receivedReductionInfo

def setAllocatedReductionInfo : Setter where
  apply := fun access => { access with allocatedReductionInfo := true }
  assertion := fun access => !access.allocatedReductionInfo

def setReceivedReductionCpuSet : Setter where
  apply := fun access => { access with receivedReductionCpuSet := true }
  assertion := fun access => !access.receivedReductionCpuSet

def unsetCanPropagateReadSatisfiability : Setter where
  apply := fun access =>
    { access with readSatisfiabilityPropagationInhibited := true }
  assertion := fun access => access.canPropagateReadSatisfiability

def unsetCanPropagateConcurrentSatisfiability : Setter where
  apply := fun access =>
    { access with concurrentSatisfiabilityPropagationInhibited := true }
  assertion := fun access => access.canPropagateConcurrentSatisfiability

def unsetCanPropagateReductionInfo : Setter where
  apply := fun access =>
    { access with reductionInfoPropagationInhibited := true }
  assertion := fun access => access.canPropagateReductionInfo

def setInBottomMap : Setter where
  apply := fun access => { access with inBottomMap := true }
  assertion := fun access => !access.inBottomMap

def unsetInBottomMap : Setter where
  apply := fun access => { access with inBottomMap := false }
  assertion := fun access => access.inBottomMap

def setTopmost : Setter where
  apply := fun access => { access with topmost := true }
  assertion := fun access => !access.topmost

def setTopLevel : Setter where
  apply := fun access => { access with topLevel := true }
  assertion := fun access => !access.topLevel

/-- The source overwrites the link without an assertion. -/
def setNext (next : DataAccessLink) : Setter where
  apply := fun access => { access with next := some next }
  assertion := fun _ => true

def setReductionInfo (info : ReductionInfo) : Setter where
  apply := fun access => { access with reductionInfo := some info }
  assertion := fun access =>
    access.reductionInfo.isNone && access.type == .reduction

def setPreviousReductionInfo (info : Option ReductionInfo) : Setter where
  apply := fun access => { access with previousReductionInfo := info }
  assertion := fun access => access.previousReductionInfo.isNone

def setPreviousReductionCpuSet (cpus : CPUSet) : Setter where
  apply := fun access => { access with previousReductionCpuSet := cpus }
  assertion := fun access => access.previousReductionCpuSet.isNone

end Setter

end Nanos6
