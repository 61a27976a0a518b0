import Nanos6.Foundation.IntervalMap
import Nanos6.Foundation.LabelledRun
import Nanos6.Dependencies.DataAccess
import Nanos6.Dependencies.StatusEffects
import Nanos6.Dependencies.StatusChanges
import Nanos6.Dependencies.System
import Nanos6.Dependencies.Registration
import Nanos6.Dependencies.Operations
import Nanos6.Dependencies.Step
import Nanos6.Accounting.Objects
import Nanos6.Accounting.Setters
import Nanos6.Dependencies.Control
import Nanos6.Accounting.Predecessors
import Nanos6.Dependencies.Lineage
import Nanos6.Accounting.Taskwaits
import Nanos6.Dependencies.Orderly
import Nanos6.Accounting.TaskwaitRuns
import Nanos6.Tasks.Lifecycle
import Nanos6.Tasks.LifecycleInvariant
import Nanos6.Tasks.LifecycleRuns
import Nanos6.Tasks.Blocking
import Nanos6.Foundation.Placement
import Nanos6.Scheduling.PriorityScheduler
import Nanos6.Scheduling.Conservation
import Nanos6.Scheduling.ConservationRuns
import Nanos6.Scheduling.Wakeups
import Nanos6.Reductions.Combination
import Nanos6.Reductions.CombinationRuns
import Nanos6.Reductions.StorageAgreement
import Nanos6.Dependencies.RemovableTasks
import Nanos6.Foundation.IntervalFill
import Nanos6.Dependencies.Upgrades
import Nanos6.Foundation.Ranking
import Nanos6.Foundation.Weights
import Nanos6.Progress.Termination
import Nanos6.Coverage.Footprint
import Nanos6.Coverage.Matching
import Nanos6.Coverage.Taskwaits
import Nanos6.Coverage.CoverageRuns
import Nanos6.Discrete.Satisfiability
import Nanos6.Foundation.OrderedMap
import Nanos6.Foundation.Ownership
import Nanos6.Foundation.Pending
import Nanos6.Scheduling.FIFOScheduler
import Nanos6.Scheduling.NUMAHierarchicalScheduler
import Nanos6.Scheduling.TreeConservation
import Nanos6.Scheduling.TreeDisabledRuns
import Nanos6.Memory.PoolAllocatorRuns
import Nanos6.Memory.ObjectLocality
import Nanos6.Services.NestedCalls
import Nanos6.Services.UserMutex
import Nanos6.Taskloops.FinalizationRuns
import Nanos6.Scheduling.PriorityOrder
import Nanos6.Scheduling.TreeQueues
import Nanos6.Taskloops.Splitting
import Nanos6.Foundation.Rounding
import Nanos6.Memory.VirtualMemoryRuns
import Nanos6.Dependencies.MultidimensionalReductions
import Nanos6.Discrete.UpgradeConflicts
import Nanos6.Regions.Traversal
import Nanos6.Dependencies.Symbols
import Nanos6.Executors.CPUManager
import Nanos6.Locks.TicketSpinLockRuns
import Nanos6.Executors.TaskAssignment
import Nanos6.Support.ConcurrentUnorderedList
import Nanos6.Support.LinkedListRuns
