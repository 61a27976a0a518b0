import Nanos6.Dependencies.DataAccess

/-!
# Status effects of a data access

What the status of an object implies for the objects around it: whether it
holds its task back, what it passes on to the next object and to the fragments
of its task, whether it can be removed.  The dependency system never acts on a
status bit by itself.  It computes the effects before and after each change and
acts on the differences.
-/

namespace Nanos6

open Foundation

structure DataAccessStatusEffects where
  isRegistered : Bool := false
  isSatisfied : Bool := false
  enforcesDependency : Bool := false
  hasNext : Bool := false
  propagatesReadSatisfiabilityToNext : Bool := false
  propagatesWriteSatisfiabilityToNext : Bool := false
  propagatesConcurrentSatisfiabilityToNext : Bool := false
  propagatesReductionInfoToNext : Bool := false
  propagatesReductionCpuSetToNext : Bool := false
  makesNextTopmost : Bool := false
  propagatesTopLevel : Bool := false
  propagatesReadSatisfiabilityToFragments : Bool := false
  propagatesWriteSatisfiabilityToFragments : Bool := false
  propagatesConcurrentSatisfiabilityToFragments : Bool := false
  propagatesReductionInfoToFragments : Bool := false
  propagatesReductionCpuSetToFragments : Bool := false
  closesPreviousReduction : Bool := false
  linksBottomMapAccessesToNextAndInhibitsPropagation : Bool := false
  isRemovable : Bool := false
  deriving DecidableEq, Repr

namespace DataAccess

def enforcesDependency (access : DataAccess) : Bool :=
  !access.weak && !access.satisfied &&
    !(access.type == .reduction && access.hasReductionInfo) &&
    access.objectType == .access

/-- The conditions that an object adds to those of its own satisfiability
before it passes read satisfiability on.  With subaccesses only a read access
passes it on itself; a fragment, a taskwait fragment or a sink passes it on at
once; a plain access does so when it is of type read or complete. -/
def forwardsRead (access : DataAccess) : Bool :=
  if access.hasSubaccesses then
    access.type == .read
  else if access.objectType == .access then
    access.type == .read || access.complete
  else
    true

/-- Write satisfiability is passed on through the fragments when there are
subaccesses. -/
def forwardsWrite (access : DataAccess) : Bool :=
  if access.hasSubaccesses then
    false
  else if access.objectType == .access then
    access.complete
  else
    true

def forwardsConcurrent (access : DataAccess) : Bool :=
  if access.hasSubaccesses then
    access.type == .concurrent
  else if access.objectType == .access then
    access.type == .concurrent || access.complete
  else
    true

/-- A nested reduction of a write or readwrite access can be combined outside
of it, so these pass the ReductionInfo on only through their fragments, or when
no subaccess can appear any more. -/
def forwardsReductionInfo (access : DataAccess) : Bool :=
  if access.hasSubaccesses then
    access.type != .write && access.type != .readwrite
  else if access.objectType == .access then
    (access.type != .write && access.type != .readwrite) || access.complete
  else
    true

def propagatesReadSatisfiabilityToNext (access : DataAccess) : Bool :=
  access.hasNext && access.canPropagateReadSatisfiability &&
    access.readSatisfied && access.forwardsRead

def propagatesWriteSatisfiabilityToNext (access : DataAccess) : Bool :=
  access.hasNext && access.writeSatisfied && access.forwardsWrite

def propagatesConcurrentSatisfiabilityToNext (access : DataAccess) : Bool :=
  access.hasNext && access.canPropagateConcurrentSatisfiability &&
    access.concurrentSatisfied && access.forwardsConcurrent

def propagatesReductionInfoToNext (access : DataAccess) : Bool :=
  access.hasNext && access.canPropagateReductionInfo &&
    access.hasReductionInfo && access.forwardsReductionInfo

def propagatesReductionCpuSetToNext (access : DataAccess) : Bool :=
  access.hasNext && !access.hasSubaccesses &&
    access.type == .reduction && access.complete &&
    access.receivedReductionInfo &&
    (access.reductionInfo != access.previousReductionInfo ||
      access.receivedReductionCpuSet)

def closesPreviousReduction (access : DataAccess) : Bool :=
  access.writeSatisfied && access.receivedReductionInfo &&
    access.receivedReductionCpuSet &&
    access.previousReductionInfo.isSome &&
    ((access.objectType == .taskwait && access.type != .reduction) ||
      (access.objectType == .access &&
        access.reductionInfo != access.previousReductionInfo))

def isRemovable (access : DataAccess) : Bool :=
  access.topmost && access.readSatisfied && access.writeSatisfied &&
    access.receivedReductionInfo &&
    (access.previousReductionInfo.isNone || access.receivedReductionCpuSet) &&
    access.complete &&
    (!access.inBottomMap || access.hasNext ||
      access.objectType == .taskwait || access.objectType == .topLevelSink)

def linksBottomMapAccessesToNextAndInhibitsPropagation
    (access : DataAccess) : Bool :=
  access.hasNext && access.complete && access.hasSubaccesses

end DataAccess

/-- The task in whose domain the objects of a link are ordered: the parent for
accesses, the task itself for fragments, taskwait fragments and sinks. -/
def DataAccessLink.domainParent (parent : TaskId → Option TaskId)
    (link : DataAccessLink) : Option TaskId :=
  match link.objectType with
  | .access => parent link.task
  | _ => some link.task

namespace DataAccess

/-- The link under which an object is found. -/
def link (access : DataAccess) : DataAccessLink :=
  ⟨access.originator, access.objectType⟩

def makesNextTopmost (parent : TaskId → Option TaskId)
    (access : DataAccess) : Bool :=
  match access.next with
  | none => false
  | some next =>
      access.isRemovable &&
        access.link.domainParent parent == next.domainParent parent

def propagatesTopLevel (parent : TaskId → Option TaskId)
    (access : DataAccess) : Bool :=
  match access.next with
  | none => false
  | some next =>
      access.topLevel && parent access.originator == parent next.task

end DataAccess

/-- The effects of an object, for a given assignment of parents. -/
def DataAccessStatusEffects.of (parent : TaskId → Option TaskId)
    (access : DataAccess) : DataAccessStatusEffects where
  isRegistered := access.registered
  isSatisfied := access.satisfied
  enforcesDependency := access.enforcesDependency
  hasNext := access.hasNext
  propagatesReadSatisfiabilityToNext :=
    access.propagatesReadSatisfiabilityToNext
  propagatesWriteSatisfiabilityToNext :=
    access.propagatesWriteSatisfiabilityToNext
  propagatesConcurrentSatisfiabilityToNext :=
    access.propagatesConcurrentSatisfiabilityToNext
  propagatesReductionInfoToNext := access.propagatesReductionInfoToNext
  propagatesReductionCpuSetToNext := access.propagatesReductionCpuSetToNext
  makesNextTopmost := access.makesNextTopmost parent
  propagatesTopLevel := access.propagatesTopLevel parent
  propagatesReadSatisfiabilityToFragments :=
    access.hasSubaccesses && access.readSatisfied
  propagatesWriteSatisfiabilityToFragments :=
    access.hasSubaccesses && access.writeSatisfied
  propagatesConcurrentSatisfiabilityToFragments :=
    access.hasSubaccesses && access.concurrentSatisfied
  propagatesReductionInfoToFragments :=
    access.hasSubaccesses && access.hasReductionInfo
  propagatesReductionCpuSetToFragments :=
    access.hasSubaccesses && access.receivedReductionCpuSet
  closesPreviousReduction := access.closesPreviousReduction
  linksBottomMapAccessesToNextAndInhibitsPropagation :=
    access.linksBottomMapAccessesToNextAndInhibitsPropagation
  isRemovable := access.isRemovable

end Nanos6
