import Nanos6.Reductions.Storage

/-!
# The storage of a task is what is combined

A byte of a declaration is written where it is combined from, exactly if all accesses
that hold the declaration have the same `ReductionInfo`.  On one CPU the storages of
different ones may also happen to lie as their regions do.
-/

namespace Nanos6.ReductionStorage

open Foundation

variable {config : Config}

/-! ### What is asked for -/

/-- The task can run: its reductions have a `ReductionInfo`. -/
def State.isRunning (state : State) (task : TaskId) : Bool :=
  (state.accesses task).pieces.all fun piece =>
    piece.value.type != .reduction || piece.value.reductionInfo.isSome

/-- The address is in the slot of the CPU and is where its byte is combined
from. -/
structure IsCopy (config : Config) (allocation : Allocation)
    (cpuId byte : Nat) (address : Int) : Prop where
  inside : (config.getCPUPrivateStorage allocation cpuId).start ≤ address ∧
    address < (config.getCPUPrivateStorage allocation cpuId).stop
  combined : ∀ region,
    address = config.combineRegion allocation region cpuId byte
  /-- The slots of other CPUs lie apart. -/
  apart : ∀ other, other ≠ cpuId →
    ¬ (config.getCPUPrivateStorage allocation cpuId).Meets
      (config.getCPUPrivateStorage allocation other)

/-- What the task gets on the CPU is combined for every byte, whatever happens
later to the accesses. -/
def State.Agrees (config : Config) (state : State) (task : TaskId)
    (region : DataAccessRegion) (cpuId : Nat) : Prop :=
  ∀ byte ∈ region, ∀ later,
    Run (step config) (fun _ _ => True)
      (state.getReductionStorage task region cpuId) later →
    ∃ access allocation,
      (later.accesses task).lookup byte = some access ∧
      later.allocation access = some allocation ∧
      cpuId ∈ access.reductionCpuSet.getD ∅ ∧
      IsCopy config allocation cpuId byte
        (state.storageAddress config task region cpuId +
          ((byte : Int) - region.start))

/-- The two accesses have the same `ReductionInfo`, or there is one CPU and their
storages lie as their regions do. -/
def State.share (config : Config) (state : State)
    (first second : DataAccess) : Bool :=
  first.reductionInfo.map ReductionInfo.identity ==
      second.reductionInfo.map ReductionInfo.identity ||
    config.nCpus == 1 &&
      match state.allocation first, state.allocation second with
      | some left, some right =>
          (left.storage : Int) - left.region.start ==
            right.storage - right.region.start
      | _, _ => false

/-- All accesses that hold the region share. -/
def State.holdsTogether (config : Config) (state : State) (task : TaskId)
    (region : DataAccessRegion) : Bool :=
  (state.intersecting task region).all fun first =>
    (state.intersecting task region).all fun second =>
      state.share config first.value second.value

/-! ## Slots -/

namespace Config

theorem size_le_paddedRegionSize (config : Config)
    (allocation : Allocation) :
    allocation.size ≤ config.paddedRegionSize allocation := by
  have positive := config.positive.2
  have division := Nat.div_add_mod
    (allocation.size + config.cacheLineSize - 1) config.cacheLineSize
  have remainder := Nat.mod_lt
    (allocation.size + config.cacheLineSize - 1) positive
  unfold paddedRegionSize
  rw [Nat.mul_comm]
  omega

/-- The slots of two CPUs lie apart. -/
theorem not_meets_getCPUPrivateStorage (config : Config)
    (allocation : Allocation) {first second : Nat}
    (differ : second ≠ first) :
    ¬ (config.getCPUPrivateStorage allocation first).Meets
      (config.getCPUPrivateStorage allocation second) := by
  have fits := config.size_le_paddedRegionSize allocation
  have ordered : ∀ {low high : Nat}, low < high →
      config.cpuStorage allocation low + allocation.size ≤
        config.cpuStorage allocation high := by
    intro low high less
    obtain ⟨distance, rfl⟩ := Nat.exists_eq_add_of_lt less
    unfold cpuStorage
    rw [show low + distance + 1 = low + (distance + 1) from rfl,
      Nat.mul_add, Nat.mul_add, Nat.mul_one]
    omega
  simp only [Interval.Meets, Interval.Nonempty, Interval.inter,
    getCPUPrivateStorage]
  rcases Nat.lt_or_gt_of_ne differ with less | greater
  · have bound := ordered less
    omega
  · have bound := ordered greater
    omega

/-- Where the copy of the byte 0 would be. -/
def origin (config : Config) (allocation : Allocation) (cpuId : Nat) : Int :=
  (config.cpuStorage allocation cpuId : Int) - allocation.region.start

theorem combineRegion_eq (config : Config) (allocation : Allocation)
    (region : DataAccessRegion) (cpuId byte : Nat) :
    config.combineRegion allocation region cpuId byte =
      config.origin allocation cpuId + byte := by
  unfold combineRegion origin
  omega

/-- An address is the copy of a byte of the region exactly if it is at its place
after the origin. -/
theorem isCopy_iff (config : Config) {allocation : Allocation}
    {byte : Nat} (inside : byte ∈ allocation.region) (cpuId : Nat)
    (address : Int) :
    IsCopy config allocation cpuId byte address ↔
      address = config.origin allocation cpuId + byte := by
  constructor
  · intro copy
    rw [← config.combineRegion_eq allocation allocation.region]
    exact copy.combined allocation.region
  · rintro rfl
    refine ⟨?_, fun region => (config.combineRegion_eq ..).symm,
      fun other differ =>
        config.not_meets_getCPUPrivateStorage allocation differ⟩
    simp only [Interval.mem_iff] at inside
    simp only [getCPUPrivateStorage, origin, Allocation.size]
    omega

/-- Storages that lie apart do not lie as the regions of neighbours do, unless
there is one CPU. -/
theorem nCpus_eq_one_of_origin (config : Config)
    {first second : Allocation} {byte cpuId : Nat}
    (isCpu : cpuId < config.nCpus) (inFirst : byte ∈ first.region)
    (inSecond : byte + 1 ∈ second.region)
    (apart : ¬ (config.mapped first).Meets (config.mapped second))
    (same : config.origin first cpuId = config.origin second cpuId) :
    config.nCpus = 1 := by
  have firstFits := config.size_le_paddedRegionSize first
  have secondFits := config.size_le_paddedRegionSize second
  obtain ⟨more, total⟩ := Nat.exists_eq_add_of_lt isCpu
  simp only [Interval.Meets, Interval.Nonempty, Interval.inter, mapped]
    at apart
  simp only [Interval.mem_iff] at inFirst inSecond
  simp only [origin, cpuStorage, Allocation.size] at same firstFits secondFits
  rw [total] at apart ⊢
  generalize config.paddedRegionSize first = firstPadded at *
  generalize config.paddedRegionSize second = secondPadded at *
  simp only [Nat.mul_add, Nat.mul_one] at apart
  have firstMore : firstPadded * more = 0 := by
    generalize firstPadded * cpuId = firstBefore at *
    generalize secondPadded * cpuId = secondBefore at *
    omega
  have secondBefore : secondPadded * cpuId = 0 := by
    generalize firstPadded * cpuId = firstBefore at *
    omega
  have firstPositive : firstPadded ≠ 0 := by
    omega
  have secondPositive : secondPadded ≠ 0 := by
    omega
  have noMore := (Nat.mul_eq_zero.mp firstMore).resolve_left firstPositive
  have noBefore := (Nat.mul_eq_zero.mp secondBefore).resolve_left
    secondPositive
  omega

end Config

/-! ## What the steps keep -/

/-- An access later keeps its type, its `ReductionInfo` and its CPUs. -/
structure Keeps (access later : DataAccess) : Prop where
  type : later.type = access.type
  info : ∀ info, access.reductionInfo = some info →
    later.reductionInfo = some info
  cpus : ∀ cpuId ∈ access.reductionCpuSet.getD ∅,
    cpuId ∈ later.reductionCpuSet.getD ∅

theorem Keeps.refl (access : DataAccess) : Keeps access access :=
  ⟨rfl, fun _ same => same, fun _ member => member⟩

theorem Keeps.trans {first second third : DataAccess}
    (left : Keeps first second) (right : Keeps second third) :
    Keeps first third :=
  ⟨right.type.trans left.type,
    fun info same => right.info info (left.info info same),
    fun cpuId member => right.cpus cpuId (left.cpus cpuId member)⟩

theorem keeps_receive (info : ReductionInfo) (access : DataAccess) :
    Keeps access (State.receive info access) := by
  unfold State.receive
  split
  · rename_i needed
    refine ⟨rfl, fun other same => ?_, fun _ member => member⟩
    rw [needed.2.1] at same
    cases same
  · exact Keeps.refl access

theorem keeps_setReductionCpu (cpuId : Nat) (access : DataAccess) :
    Keeps access (State.setReductionCpu cpuId access) :=
  ⟨rfl, fun _ same => same, fun _ member => Finset.mem_insert_of_mem member⟩

/-- What linking, fragmenting, receiving and asking for storage do to the accesses
of a task. -/
structure Updates (config : Config) (task : TaskId) (state next : State) :
    Prop where
  others : ∀ other, other ≠ task → next.accesses other = state.accesses other
  declarations : next.declarations = state.declarations
  kept : ∀ byte access, (state.accesses task).lookup byte = some access →
    ∃ later, (next.accesses task).lookup byte = some later ∧
      Keeps access later
  /-- A `ReductionInfo` is that of another access or a new one. -/
  infos : ∀ byte later info,
    (next.accesses task).lookup byte = some later →
    later.reductionInfo = some info →
      (∃ source access, (state.accesses source).lookup byte = some access ∧
        access.reductionInfo = some info) ∨
      ∃ allocation : Allocation,
        next.allocations[info.identity]? = some allocation ∧
          byte ∈ allocation.region
  allocations : next.allocations = state.allocations ∨
    ∃ allocation, state.isFree config allocation = true ∧
      next.allocations = state.allocations ++ [allocation]

/-- A change of the accesses of some bytes. -/
theorem Updates.of_lookup {state : State} {task : TaskId}
    {accesses : IntervalMap DataAccess}
    (change : Nat → DataAccess → DataAccess)
    (changed : ∀ byte, accesses.lookup byte =
      ((state.accesses task).lookup byte).map (change byte))
    (keeps : ∀ byte access, Keeps access (change byte access))
    (infos : ∀ byte access info,
      (change byte access).reductionInfo = some info →
        access.reductionInfo = some info ∨
        ∃ source access, (state.accesses source).lookup byte =
          some access ∧ access.reductionInfo = some info) :
    Updates config task state (state.setAccesses task accesses) := by
  have here : (state.setAccesses task accesses).accesses task = accesses :=
    Function.update_self ..
  refine ⟨fun other differ => Function.update_of_ne differ .., rfl, ?_, ?_,
    Or.inl rfl⟩
  · intro byte access found
    refine ⟨change byte access, ?_, keeps byte access⟩
    rw [here, changed, found]
    rfl
  · intro byte later info found isInfo
    rw [here, changed] at found
    obtain ⟨access, isAccess, rfl⟩ := Option.map_eq_some_iff.mp found
    left
    rcases infos byte access info isInfo with own | other
    · exact ⟨task, access, isAccess, own⟩
    · exact other

theorem updates_fragment {state next : State} {task : TaskId}
    {region : DataAccessRegion}
    (taken : state.fragment task region = some next) :
    Updates config task state next := by
  unfold State.fragment at taken
  split at taken
  · cases taken
    apply Updates.of_lookup fun _ access => access
    · intro byte
      rw [IntervalMap.lookup_cut, Option.map_id']
    · exact fun _ access => Keeps.refl access
    · exact fun _ _ _ same => Or.inl same
  · cases taken

theorem updates_getReductionStorage (state : State) (task : TaskId)
    (region : DataAccessRegion) (cpuId : Nat) :
    Updates config task state
      (state.getReductionStorage task region cpuId) := by
  have changed (byte : Nat) := (state.accesses task).lookup_mapMeeting
    (state.visited task region) (State.setReductionCpu cpuId) byte
  choose meets _ changed using changed
  apply Updates.of_lookup fun byte access =>
    if meets byte then State.setReductionCpu cpuId access else access
  · intro byte
    rw [changed]
    cases meets byte <;> simp
  · intro byte access
    cases meets byte
    · exact Keeps.refl access
    · exact keeps_setReductionCpu cpuId access
  · intro byte access info isInfo
    left
    cases found : meets byte <;> rw [found] at isInfo <;> exact isInfo

theorem updates_propagate {state next : State} {source target : TaskId}
    {region : DataAccessRegion}
    (taken : state.propagate source target region = some next) :
    Updates config target state next := by
  unfold State.propagate at taken
  split at taken
  · cases taken
  · rename_i piece found
    have within := List.find?_some found
    simp only [decide_eq_true_eq] at within
    split at taken
    · cases taken
    · rename_i info isInfo
      split at taken
      · cases taken
        apply Updates.of_lookup fun byte access =>
          if byte ∈ region then State.receive info access else access
        · intro byte
          rw [IntervalMap.lookup_mapMeeting_cut]
          split
          · rfl
          · rw [Option.map_id']
        · intro byte access
          split
          · exact keeps_receive info access
          · exact Keeps.refl access
        · intro byte access other isOther
          split at isOther
          · rename_i inside
            unfold State.receive at isOther
            split at isOther
            · cases isOther
              have inPiece : byte ∈ piece.interval := by
                simp only [Interval.mem_iff] at inside ⊢
                omega
              exact Or.inr ⟨source, piece.value,
                (state.accesses source).lookup_of_mem
                  (List.mem_of_find?_eq_some found) inPiece, isInfo⟩
            · exact Or.inl isOther
          · exact Or.inl isOther
      · cases taken

/-- The access that is linked. -/
theorem Updates.of_replace {state : State} {task : TaskId}
    {piece : Piece DataAccess}
    (member : piece ∈ (state.accesses task).pieces) {access : DataAccess}
    (keeps : Keeps piece.value access)
    (same : access.reductionInfo = piece.value.reductionInfo) :
    Updates config task state (state.setAccesses task
      ((state.accesses task).replace piece piece.interval
        (some access))) := by
  apply Updates.of_lookup fun byte old =>
    if byte ∈ piece.interval ∧
      (state.accesses task).lookup byte = some old then access else old
  · intro byte
    rw [IntervalMap.lookup_replace _ member]
    by_cases inside : byte ∈ piece.interval
    · rw [if_pos ⟨inside, inside⟩,
        (state.accesses task).lookup_of_mem member inside]
      simp [inside]
    · rw [if_neg fun both => inside both.1]
      simp [inside]
  · intro byte old
    split
    · rename_i found
      rw [(state.accesses task).lookup_of_mem member found.1] at found
      cases found.2
      exact keeps
    · exact Keeps.refl old
  · intro byte old info isInfo
    split at isInfo
    · rename_i found
      rw [(state.accesses task).lookup_of_mem member found.1] at found
      cases found.2
      rw [same] at isInfo
      exact Or.inl isInfo
    · exact Or.inl isInfo

/-- The access that is linked gets a `ReductionInfo` for its region. -/
theorem Updates.of_allocate {state : State} {task : TaskId}
    {piece : Piece DataAccess}
    (member : piece ∈ (state.accesses task).pieces) {access : DataAccess}
    {storage index : Nat}
    (free : state.isFree config ⟨piece.interval, storage⟩ = true)
    (keeps : Keeps piece.value access)
    (new : access.reductionInfo =
      some ⟨state.allocations.length, index⟩) :
    Updates config task state
      { state.setAccesses task
          ((state.accesses task).replace piece piece.interval
            (some access)) with
        allocations :=
          state.allocations ++ [⟨piece.interval, storage⟩] } := by
  have changed (byte : Nat) := (state.accesses task).lookup_replace member
    piece.interval (some access) byte
  refine ⟨fun other differ => Function.update_of_ne differ .., rfl, ?_, ?_,
    Or.inr ⟨_, free, rfl⟩⟩
  · intro byte old found
    simp only [State.setAccesses, Function.update_self, changed]
    by_cases inside : byte ∈ piece.interval
    · rw [(state.accesses task).lookup_of_mem member inside] at found
      cases found
      exact ⟨access, if_pos ⟨inside, inside⟩, keeps⟩
    · refine ⟨old, ?_, Keeps.refl old⟩
      rw [if_neg fun both => inside both.1]
      exact found
  · intro byte later info found isInfo
    simp only [State.setAccesses, Function.update_self, changed] at found
    split at found
    · rename_i inside
      cases found
      rw [new] at isInfo
      cases isInfo
      refine Or.inr ⟨⟨piece.interval, storage⟩, ?_, inside.1⟩
      simp
    · exact Or.inl ⟨task, later, found, isInfo⟩

theorem updates_link {state next : State} {task : TaskId} {start : Nat}
    {previous : List State.Match} {storage : Nat}
    (taken : state.link config task start previous storage = some next) :
    Updates config task state next := by
  unfold State.link at taken
  split at taken
  · cases taken
  · rename_i piece found
    have member := List.mem_of_find?_eq_some found
    simp only at taken
    split at taken
    · cases taken
    · split at taken
      · split at taken
        · rename_i free
          cases taken
          refine Updates.of_allocate member free.1
            ⟨rfl, fun info same => ?_, fun _ isCpu => isCpu⟩ rfl
          cases free.2.symm.trans same
        · cases taken
      · cases taken
        exact Updates.of_replace member
          ⟨rfl, fun _ same => same, fun _ isCpu => isCpu⟩ rfl

/-! ## Invariant -/

structure Invariant (config : Config) (state : State) : Prop where
  /-- A byte is in the region of the `ReductionInfo` of its access. -/
  held : ∀ task byte access info,
    (state.accesses task).lookup byte = some access →
    access.reductionInfo = some info →
      ∃ allocation : Allocation,
        state.allocations[info.identity]? = some allocation ∧
          byte ∈ allocation.region
  apart : state.allocations.Pairwise fun first second =>
    ¬ (config.mapped first).Meets (config.mapped second)
  /-- The bytes of the declared reductions are reductions. -/
  declared : ∀ task, ∀ declaration ∈ state.declarations task,
    declaration.type = .reduction → ∀ byte ∈ declaration.region,
      ∃ access, (state.accesses task).lookup byte = some access ∧
        access.type = .reduction

theorem Invariant.initial (config : Config) : Invariant config {} where
  held := fun _ _ _ _ found => nomatch found
  apart := List.Pairwise.nil
  declared := fun _ _ member => nomatch member

/-- No `ReductionInfo` is lost. -/
theorem Updates.getElem?_allocations {task : TaskId} {state next : State}
    (updates : Updates config task state next) {identity : Nat}
    {allocation : Allocation}
    (isAllocation : state.allocations[identity]? = some allocation) :
    next.allocations[identity]? = some allocation := by
  rcases updates.allocations with same | ⟨new, -, more⟩
  · rw [same]
    exact isAllocation
  · rw [more, List.getElem?_append_left
      (List.getElem?_eq_some_iff.mp isAllocation).1]
    exact isAllocation

theorem Updates.invariant {task : TaskId} {state next : State}
    (updates : Updates config task state next)
    (known : Invariant config state) : Invariant config next := by
  refine ⟨?_, ?_, ?_⟩
  · intro other byte access info found isInfo
    have before : (∃ source access,
        (state.accesses source).lookup byte = some access ∧
          access.reductionInfo = some info) ∨
        ∃ allocation : Allocation,
          next.allocations[info.identity]? = some allocation ∧
            byte ∈ allocation.region := by
      by_cases same : other = task
      · subst same
        exact updates.infos byte access info found isInfo
      · rw [updates.others other same] at found
        exact Or.inl ⟨other, access, found, isInfo⟩
    rcases before with ⟨source, old, isOld, oldInfo⟩ | new
    · obtain ⟨allocation, isAllocation, inside⟩ :=
        known.held source byte old info isOld oldInfo
      exact ⟨allocation, updates.getElem?_allocations isAllocation, inside⟩
    · exact new
  · rcases updates.allocations with same | ⟨new, free, more⟩
    · rw [same]
      exact known.apart
    · rw [more]
      refine List.pairwise_append.mpr
        ⟨known.apart, List.pairwise_singleton _ _, ?_⟩
      intro old isOld other isOther
      rw [List.mem_singleton.mp isOther]
      have apart := List.all_eq_true.mp free old isOld
      simpa using apart
  · intro other declaration member isReduction byte inside
    rw [updates.declarations] at member
    obtain ⟨access, found, isType⟩ :=
      known.declared other declaration member isReduction byte inside
    by_cases same : other = task
    · subst same
      obtain ⟨later, isLater, keeps⟩ := updates.kept byte access found
      exact ⟨later, isLater, keeps.type.trans isType⟩
    · refine ⟨access, ?_, isType⟩
      rw [updates.others other same]
      exact found

/-- The declarations of a task become its accesses. -/
theorem Invariant.register {state : State} {task : TaskId}
    {declarations : List AccessDeclaration}
    {accesses : IntervalMap DataAccess} (known : Invariant config state)
    (registered : registerDepinfo task declarations = some accesses) :
    Invariant config
      { state.setAccesses task accesses with
        declarations :=
          Function.update state.declarations task declarations } := by
  have start : ¬ HaveConflict [] := by
    rintro ⟨first, member, -⟩
    cases member
  have described := (describe_empty.foldlM start task declarations).2
    accesses registered
  rw [List.nil_append] at described
  refine ⟨?_, known.apart, ?_⟩
  · intro other byte access info found isInfo
    by_cases same : other = task
    · subst same
      simp only [State.setAccesses, Function.update_self] at found
      obtain ⟨piece, member, -, rfl⟩ := accesses.lookup_eq_some.mp found
      obtain ⟨type, weak, index, symbols, cpus, isAccess⟩ :=
        isDeclared_registerDepinfo registered piece member
      rw [isAccess] at isInfo
      cases isInfo
    · simp only [State.setAccesses, Function.update_of_ne same] at found
      exact known.held other byte access info found isInfo
  · intro other declaration member isReduction byte inside
    by_cases same : other = task
    · subst same
      simp only [State.setAccesses, Function.update_self] at member ⊢
      have covers := mem_covering.mpr ⟨member, inside⟩
      obtain ⟨access, found⟩ := described.exists_access covers
      exact ⟨access, found,
        ((described.describes found).reduction_iff covers).mpr isReduction⟩
    · simp only [State.setAccesses, Function.update_of_ne same]
        at member ⊢
      exact known.declared other declaration member isReduction byte inside

/-- What every step does. -/
theorem step_cases {state next : State} {action : Action}
    (taken : step config state action = some next) :
    (∃ task, Updates config task state next) ∨
      ∃ task declarations accesses,
        (state.accesses task).pieces.isEmpty = true ∧
        registerDepinfo task declarations = some accesses ∧
        next =
          { state.setAccesses task accesses with
            declarations :=
              Function.update state.declarations task declarations } := by
  cases action with
  | register task declarations =>
      simp only [step] at taken
      split at taken
      · rename_i empty
        obtain ⟨accesses, registered, rfl⟩ :=
          Option.map_eq_some_iff.mp taken
        exact Or.inr ⟨task, declarations, accesses, empty, registered, rfl⟩
      · cases taken
  | link task start previous storage =>
      exact Or.inl ⟨task, updates_link taken⟩
  | fragment task region =>
      exact Or.inl ⟨task, updates_fragment taken⟩
  | propagate source target region =>
      exact Or.inl ⟨target, updates_propagate taken⟩
  | getReductionStorage task region cpuId =>
      cases taken
      exact Or.inl ⟨task, updates_getReductionStorage ..⟩

theorem Invariant.step {state next : State} {action : Action}
    (known : Invariant config state)
    (taken : step config state action = some next) :
    Invariant config next := by
  rcases step_cases taken with ⟨task, updates⟩ |
    ⟨task, declarations, accesses, -, registered, rfl⟩
  · exact updates.invariant known
  · exact known.register registered

/-- A byte and its `ReductionInfo` are kept. -/
theorem kept_of_step {state next : State} {action : Action}
    (taken : ReductionStorage.step config state action = some next)
    {task : TaskId} {byte : Nat} {access : DataAccess}
    {allocation : Allocation}
    (found : (state.accesses task).lookup byte = some access)
    (isAllocation : state.allocation access = some allocation) :
    ∃ later, (next.accesses task).lookup byte = some later ∧
      Keeps access later ∧ next.allocation later = some allocation := by
  obtain ⟨info, isInfo, atIdentity⟩ := Option.bind_eq_some_iff.mp isAllocation
  rcases step_cases taken with ⟨other, updates⟩ |
    ⟨other, declarations, accesses, empty, registered, rfl⟩
  · have still := updates.getElem?_allocations atIdentity
    by_cases same : task = other
    · subst same
      obtain ⟨later, isLater, keeps⟩ := updates.kept byte access found
      refine ⟨later, isLater, keeps, ?_⟩
      rw [State.allocation, keeps.info info isInfo]
      exact still
    · refine ⟨access, ?_, Keeps.refl access, ?_⟩
      · rw [updates.others task same]
        exact found
      · rw [State.allocation, isInfo]
        exact still
  · have differ : task ≠ other := by
      rintro rfl
      obtain ⟨piece, member, -⟩ :=
        (state.accesses task).lookup_eq_some.mp found
      rw [List.isEmpty_iff.mp empty] at member
      cases member
    refine ⟨access, ?_, Keeps.refl access, isAllocation⟩
    simp only [State.setAccesses, Function.update_of_ne differ]
    exact found

theorem kept_of_run {state later : State}
    (run : Run (step config) (fun _ _ => True) state later)
    {task : TaskId} {byte : Nat} {access : DataAccess}
    {allocation : Allocation}
    (found : (state.accesses task).lookup byte = some access)
    (isAllocation : state.allocation access = some allocation) :
    ∃ last, (later.accesses task).lookup byte = some last ∧
      Keeps access last ∧ later.allocation last = some allocation := by
  induction run with
  | refl => exact ⟨access, found, Keeps.refl access, isAllocation⟩
  | tail _ _ taken inductionHypothesis =>
      obtain ⟨middle, isMiddle, keptFirst, middleAllocation⟩ :=
        inductionHypothesis
      obtain ⟨last, isLast, keptSecond, lastAllocation⟩ :=
        kept_of_step taken isMiddle middleAllocation
      exact ⟨last, isLast, keptFirst.trans keptSecond, lastAllocation⟩

/-! ## The address that is returned -/

/-- The access with the highest address is taken. -/
theorem firstAccess_eq {pieces : List (Piece DataAccess)}
    (reductions : ∀ piece ∈ pieces, piece.value.type = .reduction)
    (ordered : pieces.Pairwise fun first second =>
      first.interval.start < second.interval.start)
    (first : Option (Piece DataAccess))
    (before : ∀ access ∈ first, ∀ piece ∈ pieces,
      access.interval.start < piece.interval.start) :
    State.firstAccess first pieces = pieces.getLast?.or first := by
  induction pieces generalizing first with
  | nil => rfl
  | cons piece rest inductionHypothesis =>
      obtain ⟨pieceBefore, restOrdered⟩ := List.pairwise_cons.mp ordered
      obtain ⟨isReduction, restReductions⟩ :=
        List.forall_mem_cons.mp reductions
      have later : State.firstAccess (some piece) rest =
          rest.getLast?.or (some piece) := by
        apply inductionHypothesis restReductions restOrdered
        rintro access ⟨⟩
        exact pieceBefore
      have taken : State.firstAccess first (piece :: rest) =
          State.firstAccess (some piece) rest := by
        cases first with
        | none => simp [State.firstAccess, isReduction]
        | some access =>
            have lower := before access rfl piece List.mem_cons_self
            simp [State.firstAccess, isReduction, lower]
      rw [taken, later, List.getLast?_cons]
      cases rest.getLast? <;> rfl

section Storage

variable {state : State} {task : TaskId} {region : DataAccessRegion}
  {cpuId : Nat}

/-- The access of each byte of the region is a reduction. -/
def IsReduction (state : State) (task : TaskId)
    (region : DataAccessRegion) : Prop :=
  ∀ byte ∈ region, ∃ access,
    (state.accesses task).lookup byte = some access ∧
      access.type = .reduction

theorem IsReduction.type_of_intersecting
    (covered : IsReduction state task region) {piece : Piece DataAccess}
    (member : piece ∈ state.intersecting task region) :
    piece.value.type = .reduction := by
  obtain ⟨isPiece, meets⟩ := List.mem_filter.mp member
  have shared : max piece.interval.start region.start ∈
      piece.interval.inter region := ⟨Nat.le_refl _, of_decide_eq_true meets⟩
  obtain ⟨inPiece, inside⟩ := Interval.mem_inter.mp shared
  obtain ⟨access, found, isReduction⟩ := covered _ inside
  rw [(state.accesses task).lookup_of_mem isPiece inPiece] at found
  cases found
  exact isReduction

/-- It is the access of the last byte. -/
theorem IsReduction.firstAccess
    (covered : IsReduction state task region)
    {piece : Piece DataAccess}
    (isPiece : piece ∈ (state.accesses task).pieces)
    (positive : region.Nonempty)
    (inside : region.stop - 1 ∈ piece.interval) :
    State.firstAccess none (state.intersecting task region) =
      some piece := by
  have ordered : (state.intersecting task region).Pairwise fun first second =>
      first.interval.stop ≤ second.interval.start :=
    (state.accesses task).ordered.filter _
  have increasing : (state.intersecting task region).Pairwise
      fun first second => first.interval.start < second.interval.start := by
    refine ordered.imp_of_mem fun isFirst _ before => ?_
    have nonempty := (state.accesses task).nonempty _
      (List.mem_filter.mp isFirst).1
    exact lt_of_lt_of_le nonempty before
  have inRegion : region.stop - 1 ∈ region := by
    simp only [Interval.Nonempty] at positive
    simp only [Interval.mem_iff]
    omega
  have member : piece ∈ state.intersecting task region :=
    List.mem_filter.mpr ⟨isPiece, decide_eq_true
      (Interval.meets_of_mem inside inRegion)⟩
  rw [firstAccess_eq (fun _ => covered.type_of_intersecting) increasing none
    (by simp), Option.or_none]
  obtain ⟨earlier, last, equality⟩ :=
    List.eq_nil_or_concat (state.intersecting task region) |>.resolve_left
      (List.ne_nil_of_mem member)
  rw [equality, List.concat_eq_append] at member ordered ⊢
  rw [List.getLast?_concat]
  rcases List.mem_append.mp member with isEarlier | isLast
  · have isMember : last ∈ state.intersecting task region := by
      rw [equality]
      simp
    have meets := of_decide_eq_true (List.mem_filter.mp isMember).2
    have after := (List.pairwise_append.mp ordered).2.2 piece isEarlier last
      (List.mem_singleton.mpr rfl)
    simp only [Interval.Meets, Interval.Nonempty, Interval.inter] at meets
    simp only [Interval.mem_iff] at inside
    omega
  · rw [List.mem_singleton.mp isLast]

theorem IsReduction.visited (covered : IsReduction state task region) :
    state.visited task region = region := by
  unfold State.visited
  have none : (state.intersecting task region).find? (fun piece =>
      piece.value.type != .reduction) = none := by
    rw [List.find?_eq_none]
    intro piece member
    rw [covered.type_of_intersecting member]
    decide
  rw [none]

/-- The address is that of the first byte in the storage of the last one. -/
theorem IsReduction.storageAddress
    (covered : IsReduction state task region) (positive : region.Nonempty)
    {access : DataAccess}
    (found : (state.accesses task).lookup (region.stop - 1) = some access)
    {allocation : Allocation}
    (isAllocation : state.allocation access = some allocation) :
    state.storageAddress config task region cpuId =
      config.origin allocation cpuId + region.start := by
  obtain ⟨piece, isPiece, inside, rfl⟩ :=
    (state.accesses task).lookup_eq_some.mp found
  unfold State.storageAddress
  rw [covered.firstAccess isPiece positive inside]
  simp only [isAllocation, Config.origin]
  omega

/-- The CPU is noted for each byte. -/
theorem IsReduction.lookup_getReductionStorage
    (covered : IsReduction state task region) {byte : Nat}
    (inside : byte ∈ region) {access : DataAccess}
    (found : (state.accesses task).lookup byte = some access) :
    ((state.getReductionStorage task region cpuId).accesses task).lookup
      byte = some (State.setReductionCpu cpuId access) := by
  obtain ⟨meets, met, changed⟩ := (state.accesses task).lookup_mapMeeting
    region (State.setReductionCpu cpuId) byte
  simp only [State.getReductionStorage, covered.visited, State.setAccesses,
    Function.update_self]
  rw [changed, met inside, found]
  rfl

/-! ## Agreement -/

/-- The accesses of a task that can run have storage. -/
theorem exists_allocation (known : Invariant config state)
    (running : state.isRunning task = true)
    (covered : IsReduction state task region) {byte : Nat}
    (inside : byte ∈ region) :
    ∃ access allocation,
      (state.accesses task).lookup byte = some access ∧
      state.allocation access = some allocation ∧
      byte ∈ allocation.region := by
  obtain ⟨access, found, isReduction⟩ := covered byte inside
  obtain ⟨piece, member, -, rfl⟩ := (state.accesses task).lookup_eq_some.mp
    found
  have hasInfo := List.all_eq_true.mp running piece member
  rw [isReduction] at hasInfo
  obtain ⟨info, isInfo⟩ := Option.isSome_iff_exists.mp hasInfo
  obtain ⟨allocation, atIdentity, inRegion⟩ :=
    known.held task byte piece.value info found isInfo
  refine ⟨piece.value, allocation, found, ?_, inRegion⟩
  rw [State.allocation, isInfo]
  exact atIdentity

/-- The storages of all bytes have the same origin. -/
def SameOrigin (config : Config) (state : State) (task : TaskId)
    (region : DataAccessRegion) (cpuId : Nat) : Prop :=
  ∀ first ∈ region, ∀ second ∈ region, ∀ left right leftAllocation
    rightAllocation,
    (state.accesses task).lookup first = some left →
    (state.accesses task).lookup second = some right →
    state.allocation left = some leftAllocation →
    state.allocation right = some rightAllocation →
      config.origin leftAllocation cpuId =
        config.origin rightAllocation cpuId

theorem agrees_iff_sameOrigin (known : Invariant config state)
    (running : state.isRunning task = true)
    (covered : IsReduction state task region) :
    state.Agrees config task region cpuId ↔
      SameOrigin config state task region cpuId := by
  by_cases positive : region.Nonempty
  · have inRegion : region.stop - 1 ∈ region := by
      simp only [Interval.Nonempty] at positive
      simp only [Interval.mem_iff]
      omega
    obtain ⟨last, lastAllocation, isLast, lastIs, -⟩ :=
      exists_allocation known running covered inRegion
    have address : state.storageAddress config task region cpuId =
        config.origin lastAllocation cpuId + region.start :=
      covered.storageAddress positive isLast lastIs
    have copies : ∀ byte ∈ region, ∀ access allocation,
        (state.accesses task).lookup byte = some access →
        state.allocation access = some allocation →
        byte ∈ allocation.region →
          (IsCopy config allocation cpuId byte
            (state.storageAddress config task region cpuId +
              ((byte : Int) - region.start)) ↔
            config.origin lastAllocation cpuId =
              config.origin allocation cpuId) := by
      intro byte inside access allocation found isAllocation inAllocation
      rw [config.isCopy_iff inAllocation, address]
      omega
    constructor
    · intro agrees
      have same : ∀ byte ∈ region, ∀ access allocation,
          (state.accesses task).lookup byte = some access →
          state.allocation access = some allocation →
            config.origin lastAllocation cpuId =
              config.origin allocation cpuId := by
        intro byte inside access allocation found isAllocation
        obtain ⟨changed, changedAllocation, isChanged, changedIs, -, copy⟩ :=
          agrees byte inside _ (.refl _)
        rw [covered.lookup_getReductionStorage inside found] at isChanged
        cases isChanged
        have equal : changedAllocation = allocation :=
          Option.some.inj (changedIs.symm.trans isAllocation)
        subst equal
        have inAllocation : byte ∈ changedAllocation.region := by
          obtain ⟨other, otherAllocation, isOther, otherIs, inOther⟩ :=
            exists_allocation known running covered inside
          rw [found] at isOther
          cases isOther
          rw [isAllocation] at otherIs
          cases otherIs
          exact inOther
        exact (copies byte inside access changedAllocation found isAllocation
          inAllocation).mp copy
      intro first inFirst second inSecond left right leftAllocation
        rightAllocation isLeft isRight leftIs rightIs
      rw [← same first inFirst left leftAllocation isLeft leftIs,
        same second inSecond right rightAllocation isRight rightIs]
    · intro same byte inside later run
      obtain ⟨access, allocation, found, isAllocation, inAllocation⟩ :=
        exists_allocation known running covered inside
      have changed : ((state.getReductionStorage task region
          cpuId).accesses task).lookup byte =
            some (State.setReductionCpu cpuId access) :=
        covered.lookup_getReductionStorage inside found
      obtain ⟨after, isAfter, keeps, afterIs⟩ :=
        kept_of_run run changed isAllocation
      refine ⟨after, allocation, isAfter, afterIs, ?_, ?_⟩
      · exact keeps.cpus cpuId (Finset.mem_insert_self _ _)
      · rw [copies byte inside access allocation found isAllocation
          inAllocation]
        exact same _ inRegion byte inside last access lastAllocation
          allocation isLast found lastIs isAllocation
  · have nothing : ∀ byte, byte ∉ region := by
      intro byte inside
      simp only [Interval.Nonempty] at positive
      simp only [Interval.mem_iff] at inside
      omega
    constructor
    · intro _ first inFirst
      exact absurd inFirst (nothing first)
    · intro _ byte inside
      exact absurd inside (nothing byte)


/-- The `ReductionInfo` of a byte. -/
def identityAt (state : State) (task : TaskId) (byte : Nat) : Option Nat :=
  ((state.accesses task).lookup byte).bind fun access =>
    access.reductionInfo.map ReductionInfo.identity

/-- Neighbours with the same origin have the same `ReductionInfo`. -/
theorem SameOrigin.identityAt_succ (known : Invariant config state)
    (running : state.isRunning task = true)
    (covered : IsReduction state task region)
    (isCpu : cpuId < config.nCpus) (several : config.nCpus ≠ 1)
    (same : SameOrigin config state task region cpuId) {byte : Nat}
    (inside : byte ∈ region) (next : byte + 1 ∈ region) :
    identityAt state task byte = identityAt state task (byte + 1) := by
  obtain ⟨left, leftAllocation, isLeft, leftIs, inLeft⟩ :=
    exists_allocation known running covered inside
  obtain ⟨right, rightAllocation, isRight, rightIs, inRight⟩ :=
    exists_allocation known running covered next
  have origins := same byte inside (byte + 1) next left right leftAllocation
    rightAllocation isLeft isRight leftIs rightIs
  obtain ⟨leftInfo, isLeftInfo, atLeft⟩ := Option.bind_eq_some_iff.mp leftIs
  obtain ⟨rightInfo, isRightInfo, atRight⟩ :=
    Option.bind_eq_some_iff.mp rightIs
  have equal : leftInfo.identity = rightInfo.identity := by
    by_contra differ
    refine several (config.nCpus_eq_one_of_origin isCpu inLeft inRight ?_
      origins)
    obtain ⟨leftInside, rfl⟩ := List.getElem?_eq_some_iff.mp atLeft
    obtain ⟨rightInside, rfl⟩ := List.getElem?_eq_some_iff.mp atRight
    have ordered := List.pairwise_iff_getElem.mp known.apart
    rcases Nat.lt_or_gt_of_ne differ with less | greater
    · exact ordered _ _ leftInside rightInside less
    · intro meets
      refine ordered _ _ rightInside leftInside greater ?_
      simp only [Interval.Meets, Interval.Nonempty, Interval.inter] at meets ⊢
      omega
  simp only [identityAt, isLeft, isRight, isLeftInfo, isRightInfo,
    Option.bind_some, Option.map_some, equal]

theorem SameOrigin.identityAt_add (known : Invariant config state)
    (running : state.isRunning task = true)
    (covered : IsReduction state task region)
    (isCpu : cpuId < config.nCpus) (several : config.nCpus ≠ 1)
    (same : SameOrigin config state task region cpuId) (distance : Nat)
    {byte : Nat} (inside : byte ∈ region) (far : byte + distance ∈ region) :
    identityAt state task byte =
      identityAt state task (byte + distance) := by
  induction distance with
  | zero => rfl
  | succ distance inductionHypothesis =>
      have near : byte + distance ∈ region := by
        simp only [Interval.mem_iff] at inside far ⊢
        omega
      exact (inductionHypothesis near).trans
        (same.identityAt_succ known running covered isCpu several near far)

/-- Two accesses that share have storages with the same origin. -/
theorem origin_eq_of_share {left right : DataAccess}
    (shares : state.share config left right = true)
    (isCpu : cpuId < config.nCpus)
    {leftAllocation rightAllocation : Allocation}
    (leftIs : state.allocation left = some leftAllocation)
    (rightIs : state.allocation right = some rightAllocation) :
    config.origin leftAllocation cpuId =
      config.origin rightAllocation cpuId := by
  obtain ⟨leftInfo, isLeftInfo, atLeft⟩ := Option.bind_eq_some_iff.mp leftIs
  obtain ⟨rightInfo, isRightInfo, atRight⟩ :=
    Option.bind_eq_some_iff.mp rightIs
  simp only [State.share, isLeftInfo, isRightInfo, Option.map_some, leftIs,
    rightIs, Bool.or_eq_true, beq_iff_eq, Option.some.injEq,
    Bool.and_eq_true] at shares
  rcases shares with same | ⟨single, lie⟩
  · rw [same, atRight] at atLeft
    cases atLeft
    rfl
  · have first : cpuId = 0 := by omega
    subst first
    simp only [Config.origin, Config.cpuStorage, Nat.mul_zero, Nat.add_zero]
    exact lie

theorem sameOrigin_iff_holdsTogether (known : Invariant config state)
    (running : state.isRunning task = true)
    (covered : IsReduction state task region)
    (isCpu : cpuId < config.nCpus) :
    SameOrigin config state task region cpuId ↔
      state.holdsTogether config task region = true := by
  have bytes : ∀ piece ∈ state.intersecting task region, ∃ byte ∈ region,
      (state.accesses task).lookup byte = some piece.value := by
    intro piece member
    obtain ⟨isPiece, meets⟩ := List.mem_filter.mp member
    have shared : max piece.interval.start region.start ∈
        piece.interval.inter region :=
      ⟨Nat.le_refl _, of_decide_eq_true meets⟩
    obtain ⟨inPiece, inside⟩ := Interval.mem_inter.mp shared
    exact ⟨_, inside, (state.accesses task).lookup_of_mem isPiece inPiece⟩
  have pieces : ∀ byte ∈ region, ∀ access,
      (state.accesses task).lookup byte = some access →
        ∃ piece ∈ state.intersecting task region, piece.value = access := by
    intro byte inside access found
    obtain ⟨piece, isPiece, inPiece, same⟩ :=
      (state.accesses task).lookup_eq_some.mp found
    exact ⟨piece, List.mem_filter.mpr ⟨isPiece,
      decide_eq_true (Interval.meets_of_mem inPiece inside)⟩, same⟩
  simp only [State.holdsTogether, List.all_eq_true]
  constructor
  · intro same first isFirst second isSecond
    obtain ⟨firstByte, inFirst, firstFound⟩ := bytes first isFirst
    obtain ⟨secondByte, inSecond, secondFound⟩ := bytes second isSecond
    simp only [State.share, Bool.or_eq_true, beq_iff_eq, Bool.and_eq_true]
    by_cases single : config.nCpus = 1
    · right
      obtain ⟨left, leftAllocation, isLeft, leftIs, -⟩ :=
        exists_allocation known running covered inFirst
      obtain ⟨right, rightAllocation, isRight, rightIs, -⟩ :=
        exists_allocation known running covered inSecond
      have origins := same firstByte inFirst secondByte inSecond left right
        leftAllocation rightAllocation isLeft isRight leftIs rightIs
      have isZero : cpuId = 0 := by omega
      subst isZero
      simp only [Config.origin, Config.cpuStorage, Nat.mul_zero,
        Nat.add_zero] at origins
      rw [firstFound] at isLeft
      rw [secondFound] at isRight
      cases isLeft
      cases isRight
      rw [leftIs, rightIs]
      exact ⟨single, beq_iff_eq.mpr origins⟩
    · left
      have identities : identityAt state task firstByte =
          identityAt state task secondByte := by
        rcases Nat.le_total firstByte secondByte with low | high
        · obtain ⟨distance, rfl⟩ := Nat.exists_eq_add_of_le low
          exact same.identityAt_add known running covered isCpu single
            distance inFirst inSecond
        · obtain ⟨distance, rfl⟩ := Nat.exists_eq_add_of_le high
          exact (same.identityAt_add known running covered isCpu single
            distance inSecond inFirst).symm
      simpa only [identityAt, firstFound, secondFound, Option.bind_some]
        using identities
  · intro together first inFirst second inSecond left right leftAllocation
      rightAllocation isLeft isRight leftIs rightIs
    obtain ⟨leftPiece, isLeftPiece, rfl⟩ := pieces first inFirst left isLeft
    obtain ⟨rightPiece, isRightPiece, rfl⟩ :=
      pieces second inSecond right isRight
    exact origin_eq_of_share (together leftPiece isLeftPiece rightPiece
      isRightPiece) isCpu leftIs rightIs

end Storage

theorem agrees_iff_holdsTogether {state : State}
    (run : Run (step config) (fun _ _ => True) {} state) {task : TaskId}
    {declaration : AccessDeclaration}
    (declared : declaration ∈ state.declarations task)
    (isReduction : declaration.type = .reduction)
    (running : state.isRunning task = true) {cpuId : Nat}
    (isCpu : cpuId < config.nCpus) :
    state.Agrees config task declaration.region cpuId ↔
      state.holdsTogether config task declaration.region = true := by
  have known : Invariant config state :=
    run.invariant (Invariant.initial config)
      fun _ _ _ known _ taken => known.step taken
  have covered : IsReduction state task declaration.region :=
    known.declared task declaration declared isReduction
  rw [agrees_iff_sameOrigin known running covered]
  exact sameOrigin_iff_holdsTogether known running covered isCpu

/-! ## Two declarations that overlap -/

def twoCpus : Config where
  nCpus := 2
  cacheLineSize := 64
  positive := by decide

/-- A reduction over the bytes of a region. -/
def reductionOver (start stop : Nat) : AccessDeclaration :=
  { type := .reduction
    weak := false
    region := ⟨start, stop⟩
    reductionTypeAndOperatorIndex := some 0 }

/-- One declaration, whose access is fragmented when it has been linked. -/
def fragmentedReduction : List Action :=
  [.register 1 [reductionOver 0 8], .link 1 0 [.missing] 4096,
    .fragment 1 ⟨4, 8⟩]

theorem agrees_fragmentedReduction :
    ∃ state, Run (step twoCpus) (fun _ _ => True) {} state ∧
      state.intersecting 1 ⟨0, 8⟩ ≠ [] ∧
      state.Agrees twoCpus 1 (reductionOver 0 8).region 1 := by
  let ready (state : State) : Bool :=
    decide (reductionOver 0 8 ∈ state.declarations 1) &&
      state.isRunning 1 && (state.intersecting 1 ⟨0, 8⟩).length == 2 &&
      state.holdsTogether twoCpus 1 ⟨0, 8⟩
  obtain ⟨state, run, holds⟩ :
      ∃ state, Run (step twoCpus) (fun _ _ => True) {} state ∧
        ready state = true :=
    exists_run_of_executeAllowed fragmentedReduction {} ready
      (by decide +kernel)
  simp only [ready, Bool.and_eq_true, decide_eq_true_eq, beq_iff_eq] at holds
  refine ⟨state, run, ?_, ?_⟩
  · apply List.ne_nil_of_length_pos
    rw [holds.1.2]
    decide
  · exact (agrees_iff_holdsTogether run holds.1.1.1 rfl holds.1.1.2
      (by decide)).mpr holds.2

/-- Two declarations that overlap, held by three accesses with storages of their
own. -/
def overlappingReductions : List Action :=
  [.register 1 [reductionOver 0 8, reductionOver 4 12],
    .link 1 0 [.missing] 4096, .link 1 4 [.missing] 8192,
    .link 1 8 [.missing] 12288]

/-- The storage for the first declaration begins before that of the access in its
second half. -/
theorem agrees_fails :
    ¬ ∀ (config : Config) (state : State) (task : TaskId)
        (declaration : AccessDeclaration) (cpuId : Nat),
      Run (step config) (fun _ _ => True) {} state →
      declaration ∈ state.declarations task →
      declaration.type = .reduction →
      state.isRunning task = true → cpuId < config.nCpus →
        state.Agrees config task declaration.region cpuId := by
  intro holds
  let asked (state : State) : State :=
    state.getReductionStorage 1 (reductionOver 0 8).region 0
  let first : Allocation := ⟨⟨0, 4⟩, 4096⟩
  let ready (state : State) : Bool :=
    decide (reductionOver 0 8 ∈ state.declarations 1) &&
      state.isRunning 1 &&
      state.storageAddress twoCpus 1 (reductionOver 0 8).region 0 == 8188 &&
      (((asked state).accesses 1).lookup 0).bind (asked state).allocation ==
        some first
  obtain ⟨state, run, isReady⟩ :
      ∃ state, Run (step twoCpus) (fun _ _ => True) {} state ∧
        ready state = true :=
    exists_run_of_executeAllowed overlappingReductions {} ready
      (by decide +kernel)
  simp only [ready, Bool.and_eq_true, decide_eq_true_eq, beq_iff_eq]
    at isReady
  have inside : 0 ∈ (reductionOver 0 8).region := by decide
  have agrees := holds twoCpus state 1 (reductionOver 0 8) 0 run
    isReady.1.1.1 rfl isReady.1.1.2 (by decide)
  obtain ⟨access, allocation, found, isAllocation, -, copy⟩ :=
    agrees 0 inside (asked state) (.refl _)
  have isFirst := isReady.2
  rw [found, Option.bind_some, isAllocation] at isFirst
  cases isFirst
  have below := copy.inside.2
  rw [isReady.1.2] at below
  revert below
  decide

end Nanos6.ReductionStorage
