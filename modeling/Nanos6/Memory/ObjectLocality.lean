import Nanos6.Memory.ObjectCacheOverflow

/-!
# Objects on the NUMA node of their pool

The cache of a CPU is the one at the position of its virtual identifier among the
CPUs of the machine.  If some of them are not in the affinity mask, that may be the
cache of a CPU on another NUMA node, which keeps the objects for the wrong node.
The objects are on the node of their pool exactly if, for each CPU in the mask, the
CPU of the machine at the position of its virtual identifier is on the same node.
-/

namespace Nanos6.ObjectCache

open Foundation

/-! ## The numbers of the CPUs -/

/-- The CPUs in the mask are numbered in their order. -/
theorem cpus_foldl_add (mask : Nat → Bool) (cpus : List CPU)
    (numbering : Numbering) :
    (cpus.foldl (Numbering.add mask) numbering).cpus =
      numbering.cpus ++ cpus.filter fun cpu => mask cpu.systemCPUId := by
  induction cpus generalizing numbering with
  | nil => exact (List.append_nil _).symm
  | cons cpu rest inductionHypothesis =>
      rw [List.foldl_cons, inductionHypothesis, Numbering.add]
      by_cases inMask : mask cpu.systemCPUId = true
      · rw [if_pos inMask, List.filter_cons, if_pos inMask, List.append_assoc]
        rfl
      · rw [if_neg inMask, List.filter_cons, if_neg inMask]

theorem Config.cpus_preinitialize (config : Config) :
    config.preinitialize.cpus = config.computePlaces.filter fun cpu =>
      config.processCPUMask cpu.systemCPUId :=
  cpus_foldl_add ..

/-- A virtual identifier is the position of some CPU of the machine. -/
theorem Config.exists_computePlace (config : Config) {virtualCPUId : Nat}
    {cpu : CPU} (found : config.cpu virtualCPUId = some cpu) :
    cpu ∈ config.computePlaces ∧
      ∃ place, config.computePlaces[virtualCPUId]? = some place := by
  rw [Config.cpu, cpus_preinitialize] at found
  refine ⟨List.mem_of_mem_filter (List.mem_of_getElem? found), ?_⟩
  obtain ⟨inside, -⟩ := List.getElem?_eq_some_iff.mp found
  have shorter := List.length_filter_le
    (fun cpu : CPU => config.processCPUMask cpu.systemCPUId)
    config.computePlaces
  exact ⟨_, List.getElem?_eq_getElem (lt_of_lt_of_le inside shorter)⟩

/-- The CPU with a virtual identifier is on the node of the CPU of the machine
at that position. -/
def Config.agrees (config : Config) : Bool :=
  (config.preinitialize.cpus.zip config.computePlaces).all fun pair =>
    pair.1.numaNodeId == pair.2.numaNodeId

theorem Config.agrees_iff (config : Config) :
    config.agrees = true ↔ ∀ virtualCPUId cpu place,
      config.cpu virtualCPUId = some cpu →
      config.computePlaces[virtualCPUId]? = some place →
        cpu.numaNodeId = place.numaNodeId := by
  simp only [agrees, List.all_eq_true, beq_iff_eq]
  constructor
  · intro all virtualCPUId cpu place isCPU isPlace
    exact all (cpu, place) (List.mem_of_getElem?
      (List.getElem?_zip_eq_some.mpr ⟨isCPU, isPlace⟩))
  · intro all pair member
    obtain ⟨virtualCPUId, there⟩ := List.mem_iff_getElem?.mp member
    obtain ⟨isCPU, isPlace⟩ := List.getElem?_zip_eq_some.mp there
    exact all virtualCPUId pair.1 pair.2 isCPU isPlace

/-- Then the cache that is found is one for the node of the CPU. -/
theorem Config.numaNodeId_eq_homeNode {config : Config}
    (agrees : config.agrees = true) {place : Place}
    (isPlace : config.isPlace place = true) :
    config.numaNodeId place = config.homeNode place := by
  cases place with
  | none => rfl
  | some virtualCPUId =>
      obtain ⟨cpu, isCPU⟩ := Option.isSome_iff_exists.mp isPlace
      obtain ⟨-, other, isOther⟩ := config.exists_computePlace isCPU
      have same := config.agrees_iff.mp agrees virtualCPUId cpu other isCPU
        isOther
      simp only [numaNodeId, homeNode, isCPU, isOther, Option.map_some,
        Option.getD_some]
      exact same.symm

/-! ## Where the objects are -/

/-- The allocator returns memory on the node of the CPU that calls it. -/
def permitsLocal (config : Config) (state : State) (action : Action) :
    Bool :=
  permits config state action &&
    match action with
    | .newObject place memory => memory.node == config.homeNode place
    | .deleteObject _ _ => true

def PermittedLocal (config : Config) (state : State) (action : Action) :
    Prop :=
  permitsLocal config state action = true

instance (config : Config) (state : State) (action : Action) :
    Decidable (PermittedLocal config state action) :=
  inferInstanceAs (Decidable (permitsLocal config state action = true))

def Pool.node : Pool → Nat
  | .available _ node => node
  | .numa node => node

/-- The memory of the object is on the node. -/
def State.IsOn (state : State) (object node : Nat) : Prop :=
  ∃ memory ∈ state.memories, memory.range.Contains object ∧
    memory.node = node

/-- What keeps the objects where they should be. -/
structure IsSorted (config : Config) (state : State) : Prop where
  invariant : Invariant config state
  sorted : ∀ pool, ∀ object ∈ state.pool pool, state.IsOn object pool.node

namespace IsSorted

variable {config : Config} {state next : State}

theorem initial (config : Config) : IsSorted config {} where
  invariant := Invariant.initial config
  sorted := by simp

/-- `findNUMA` finds the memory of the object. -/
theorem findNUMA_of_isOn (known : IsSorted config state)
    {object node : Nat} (isOn : state.IsOn object node) :
    state.findNUMA config object = node := by
  obtain ⟨memory, member, contains, rfl⟩ := isOn
  unfold State.findNUMA
  cases found : state.memories.find? fun memory =>
      decide (memory.range.Contains object) with
  | none =>
      have outside := List.find?_eq_none.mp found memory member
      exact absurd (decide_eq_true contains) outside
  | some other =>
      have isMember := List.mem_of_find?_eq_some found
      have passes := List.find?_some found
      have also : other.range.Contains object := of_decide_eq_true passes
      have same : other = memory := by
        by_contra differ
        have symmetric : Std.Symm fun first second : Memory =>
            first.range.Disjoint second.range :=
          ⟨fun _ _ disjoint byte first second =>
            disjoint byte second first⟩
        exact known.invariant.apart.forall isMember member differ object also
          contains
      rw [same]
      rfl

theorem isOn_findNUMA (known : IsSorted config state) {object : Nat}
    (isObject : object ∈ state.objects) :
    state.IsOn object (state.findNUMA config object) := by
  obtain ⟨memory, member, contains⟩ := known.invariant.within object isObject
  have isOn : state.IsOn object memory.node :=
    ⟨memory, member, contains, rfl⟩
  rw [known.findNUMA_of_isOn isOn]
  exact isOn

/-- The objects of a pool are passed to another one for the same node. -/
theorem sorted_of_moves
    (sorted : ∀ pool, ∀ object ∈ state.pool pool,
      state.IsOn object pool.node)
    (memories : ∀ memory ∈ state.memories, memory ∈ next.memories)
    (moves : ∀ pool, ∀ object ∈ next.pool pool,
      next.IsOn object pool.node ∨
        ∃ before, before.node = pool.node ∧ object ∈ state.pool before) :
    ∀ pool, ∀ object ∈ next.pool pool, next.IsOn object pool.node := by
  intro pool object member
  rcases moves pool object member with isOn | ⟨before, same, inside⟩
  · exact isOn
  · obtain ⟨memory, isMemory, contains, node⟩ :=
      sorted before object inside
    exact ⟨memory, memories memory isMemory, contains, node.trans same⟩

/-- A pool is given other objects. -/
theorem mem_setPool {pool other : Pool} {objects : List Nat} {object : Nat}
    (member : object ∈ (state.setPool pool objects).pool other) :
    other = pool ∧ object ∈ objects ∨ object ∈ state.pool other := by
  by_cases same : other = pool
  · subst same
    rw [State.pool_setPool_self] at member
    exact Or.inl ⟨rfl, member⟩
  · rw [state.pool_setPool_of_ne objects same] at member
    exact Or.inr member

theorem fillCPUPool
    (sorted : ∀ pool, ∀ object ∈ state.pool pool,
      state.IsOn object pool.node) (place : Place)
    (node requestedObjects : Nat) :
    ∀ pool, ∀ object ∈ (state.fillCPUPool node (.available place node)
      requestedObjects).1.pool pool,
      (state.fillCPUPool node (.available place node)
        requestedObjects).1.IsOn object pool.node := by
  refine sorted_of_moves sorted (fun _ isMemory => isMemory) ?_
  intro pool object member
  right
  rcases mem_setPool member with ⟨rfl, dropped⟩ | inside
  · exact ⟨.numa node, rfl, List.mem_of_mem_drop dropped⟩
  · rcases mem_setPool inside with ⟨rfl, moved⟩ | old
    · rcases List.mem_append.mp moved with taken | before
      · exact ⟨.numa node, rfl,
          List.mem_of_mem_take (List.mem_reverse.mp taken)⟩
      · exact ⟨_, rfl, before⟩
    · exact ⟨pool, rfl, old⟩

theorem refill (known : IsSorted config state) {place : Place}
    {memory : Memory} {filled : State}
    (home : memory.node = config.numaNodeId place)
    (empty : state.pool (.available place (config.numaNodeId place)) = [])
    (permitted : Permitted config state (.newObject place memory))
    (taken : state.refill config place memory = some filled) :
    IsSorted config filled := by
  refine ⟨(known.invariant.refill empty permitted taken).1, ?_⟩
  have fits := permitted
  simp only [Permitted, permits, State.allocates, empty, List.isEmpty_nil,
    Bool.true_and, Bool.or_eq_true, Bool.not_eq_true', beq_eq_false_iff_ne,
    Bool.and_eq_true, decide_eq_true_eq] at fits
  let started : State :=
    { state with
      allocationSize := Function.update state.allocationSize place
        (state.allocationSize place * 2 % sizeLimit) }
  have startedSorted : ∀ pool, ∀ object ∈ started.pool pool,
      started.IsOn object pool.node := known.sorted
  have recycled := fillCPUPool startedSorted place
    (config.numaNodeId place) (state.allocationSize place * 2 % sizeLimit)
  unfold State.refill at taken
  simp only at taken
  split at taken
  · rename_i none
    split at taken
    · rename_i fresh
      cases taken
      have noOverflow := (fits.resolve_left (not_not_intro none)).2
      refine sorted_of_moves recycled
        (fun _ isMemory => List.mem_cons_of_mem _ isMemory) ?_
      intro pool object member
      rcases mem_setPool member with ⟨rfl, inside⟩ | old
      · rcases List.mem_append.mp inside with before | new
        · exact Or.inr ⟨_, rfl, before⟩
        · left
          refine ⟨memory, List.mem_cons_self, ?_, home⟩
          have contains := contains_chunksFrom config.size.1 new
          simp only [State.isFresh, Bool.and_eq_true, beq_iff_eq,
            Nat.mod_eq_of_lt noOverflow] at fresh
          rw [← fresh.1.1.1] at contains
          exact contains
      · exact Or.inr ⟨pool, rfl, old⟩
    · cases taken
  · cases taken
    exact recycled

theorem takeFront (known : IsSorted config state) {pool : Pool}
    (full : state.pool pool ≠ []) :
    IsSorted config (state.takeFront pool) := by
  refine ⟨(known.invariant.takeFront full).1, ?_⟩
  obtain ⟨object, rest, isPool⟩ := List.exists_cons_of_ne_nil full
  unfold State.takeFront
  rw [isPool]
  refine sorted_of_moves known.sorted (fun _ isMemory => isMemory) ?_
  intro other item member
  right
  rcases mem_setPool member with ⟨rfl, inside⟩ | old
  · refine ⟨other, rfl, ?_⟩
    rw [isPool]
    exact List.mem_cons_of_mem _ inside
  · exact ⟨other, rfl, old⟩

/-- The object that is returned is the front of the pool. -/
theorem isOn_takeFront (known : IsSorted config state) {pool : Pool}
    (full : state.pool pool ≠ []) {object : Nat}
    (isLive : (state.takeFront pool).live = object :: state.live) :
    (state.takeFront pool).IsOn object pool.node := by
  obtain ⟨front, rest, isPool⟩ := List.exists_cons_of_ne_nil full
  have taken : state.takeFront pool =
      { state.setPool pool rest with live := front :: state.live } := by
    unfold State.takeFront
    rw [isPool]
  rw [taken] at isLive ⊢
  obtain ⟨rfl, -⟩ := List.cons.inj isLive
  have inside : front ∈ state.pool pool := by
    rw [isPool]
    exact List.mem_cons_self
  exact known.sorted pool front inside

theorem newObject (known : IsSorted config state) {place : Place}
    {memory : Memory} (home : memory.node = config.numaNodeId place)
    (permitted : Permitted config state (.newObject place memory))
    (taken : state.newObject config place memory = some next) :
    IsSorted config next ∧ ∀ object, next.live = object :: state.live →
      next.IsOn object (config.numaNodeId place) := by
  unfold State.newObject at taken
  simp only at taken
  split at taken
  · rename_i empty
    obtain ⟨filled, refilled, rfl⟩ := Option.map_eq_some_iff.mp taken
    obtain ⟨-, live, full⟩ := known.invariant.refill empty permitted refilled
    have knownFilled := known.refill home empty permitted refilled
    refine ⟨knownFilled.takeFront full, fun object isLive => ?_⟩
    rw [← live] at isLive
    exact knownFilled.isOn_takeFront full isLive
  · rename_i full
    cases taken
    exact ⟨known.takeFront full, fun object isLive =>
      known.isOn_takeFront full isLive⟩

theorem returnObjects
    (sorted : ∀ pool, ∀ object ∈ state.pool pool,
      state.IsOn object pool.node) (node : Nat) (place : Place) :
    ∀ pool, ∀ object ∈ (state.returnObjects node
      (.available place node)).pool pool,
      (state.returnObjects node (.available place node)).IsOn object
        pool.node := by
  refine sorted_of_moves sorted (fun _ isMemory => isMemory) ?_
  intro pool object member
  right
  rcases mem_setPool member with ⟨-, nothing⟩ | inside
  · exact absurd nothing List.not_mem_nil
  · rcases mem_setPool inside with ⟨rfl, moved⟩ | old
    · rcases List.mem_append.mp moved with before | returned
      · exact ⟨.numa node, rfl, before⟩
      · exact ⟨.available place node, rfl, returned⟩
    · exact ⟨pool, rfl, old⟩

theorem deleteObject (known : IsSorted config state) (place : Place)
    {object : Nat} (inUse : object ∈ state.live) :
    IsSorted config (state.deleteObject config place object) := by
  have isObject : object ∈ state.objects :=
    (known.invariant.bagged.mem_iff object).mpr ⟨none, inUse⟩
  have isOn := known.isOn_findNUMA isObject
  have invariant := known.invariant.deleteObject place inUse
  let pool := Pool.available place (state.findNUMA config object)
  let deleted : State :=
    { state.setPool pool (object :: state.pool pool) with
      live := state.live.erase object }
  have sorted : ∀ pool, ∀ object ∈ deleted.pool pool,
      deleted.IsOn object pool.node := by
    refine sorted_of_moves known.sorted (fun _ isMemory => isMemory) ?_
    intro other item member
    rcases mem_setPool member with ⟨rfl, inside⟩ | old
    · rcases List.mem_cons.mp inside with rfl | before
      · exact Or.inl isOn
      · exact Or.inr ⟨pool, rfl, before⟩
    · exact Or.inr ⟨other, rfl, old⟩
  refine ⟨invariant, ?_⟩
  unfold State.deleteObject
  simp only
  split
  · exact returnObjects sorted _ _
  · exact sorted

theorem step (known : IsSorted config state)
    (agrees : config.agrees = true) {action : Action}
    (permitted : PermittedLocal config state action)
    (taken : step config state action = some next) :
    IsSorted config next := by
  obtain ⟨fits, home⟩ := Bool.and_eq_true_iff.mp permitted
  cases action with
  | newObject place memory =>
      simp only [ObjectCache.step] at taken
      split at taken
      · rename_i isPlace
        have node : memory.node = config.numaNodeId place := by
          rw [config.numaNodeId_eq_homeNode agrees isPlace]
          exact beq_iff_eq.mp home
        exact (known.newObject node fits taken).1
      · cases taken
  | deleteObject place object =>
      simp only [ObjectCache.step] at taken
      split at taken
      · rename_i allowed
        cases taken
        exact known.deleteObject place allowed.2
      · cases taken

end IsSorted

/-! ## What the caches guarantee -/

structure State.IsLocal (config : Config) (state : State) : Prop where
  /-- The objects of a pool are on its node. -/
  pools : ∀ pool, ∀ object ∈ state.pool pool,
    state.findNUMA config object = pool.node
  /-- An object that is returned on a CPU is on the node of the CPU. -/
  returned : ∀ place memory next,
    PermittedLocal config state (.newObject place memory) →
    step config state (.newObject place memory) = some next →
      ∃ object, next.live = object :: state.live ∧
        next.findNUMA config object = config.homeNode place

theorem IsSorted.isLocal {config : Config} {state : State}
    (known : IsSorted config state) (agrees : config.agrees = true) :
    state.IsLocal config := by
  constructor
  · intro pool object member
    exact known.findNUMA_of_isOn (known.sorted pool object member)
  · intro place memory next permitted taken
    have after := known.step agrees permitted taken
    obtain ⟨fits, home⟩ := Bool.and_eq_true_iff.mp permitted
    simp only [ObjectCache.step] at taken
    split at taken
    · rename_i isPlace
      have same := config.numaNodeId_eq_homeNode agrees isPlace
      have node : memory.node = config.numaNodeId place :=
        (beq_iff_eq.mp home).trans same.symm
      obtain ⟨object, isLive, -⟩ :=
        (known.invariant.newObject fits taken).2
      have isOn := (known.newObject node fits taken).2 object isLive
      rw [same] at isOn
      exact ⟨object, isLive, after.findNUMA_of_isOn isOn⟩
    · cases taken

/-- The first object that is created at a place leaves another one in the pool
for the node of the cache. -/
theorem exists_step_initial {config : Config} {virtualCPUId : Nat}
    {cpu : CPU} (isCPU : config.cpu virtualCPUId = some cpu) :
    let memory : Memory :=
      ⟨⟨config.objectSize, 2 * config.objectSize⟩, cpu.numaNodeId⟩
    PermittedLocal config {} (.newObject (some virtualCPUId) memory) ∧
      ∃ next, step config {} (.newObject (some virtualCPUId) memory) =
        some next ∧ next.memories = [memory] ∧
        next.pool (.available (some virtualCPUId)
          (config.numaNodeId (some virtualCPUId))) =
            [2 * config.objectSize] := by
  intro memory
  have isPlace : config.isPlace (some virtualCPUId) = true := by
    rw [Config.isPlace, isCPU]
    rfl
  have bound := config.size
  have doubled : 1 * 2 % sizeLimit = 2 := by decide
  have fits : 2 * config.objectSize < sizeLimit := by omega
  constructor
  · simp [PermittedLocal, permitsLocal, permits, doubled, fits,
      Config.homeNode, isCPU, memory]
  · have onMachine := (config.exists_computePlace isCPU).1
    have isNode := config.nodes.2 cpu onMachine
    have fresh : ∀ state : State, state.memories = [] →
        state.isFresh config memory
          (2 * config.objectSize % sizeLimit) = true := by
      intro state none
      have limit : config.objectSize + 2 * config.objectSize < sizeLimit := by
        omega
      rw [Nat.mod_eq_of_lt fits]
      simp only [State.isFresh, none, memory, beq_self_eq_true,
        Bool.true_and, List.all_nil, Bool.and_true, Bool.and_eq_true,
        decide_eq_true_eq, Range.limit]
      exact ⟨decide_eq_true limit, isNode.le⟩
    simp only [step, isPlace, State.newObject, State.refill, doubled,
      State.fillCPUPool, if_true, List.length_nil, Nat.min_zero,
      Nat.zero_mod]
    rw [if_pos (fresh _ rfl)]
    refine ⟨_, rfl, ?_⟩
    simp [State.takeFront, State.allocate, State.setPool, chunksFrom, memory]
    omega

theorem isLocal_of_runs_iff (config : Config) :
    (∀ state, Run (step config) (PermittedLocal config) {} state →
      state.IsLocal config) ↔ config.agrees = true := by
  constructor
  · intro holds
    rw [config.agrees_iff]
    intro virtualCPUId cpu place isCPU isPlace
    obtain ⟨permitted, next, taken, memories, pool⟩ :=
      exists_step_initial isCPU
    have known := holds next (Run.single _ permitted taken)
    have node := known.pools _ (2 * config.objectSize) (by
      rw [pool]
      exact List.mem_cons_self)
    have bound := config.size.1
    have contains : Range.Contains
        ⟨config.objectSize, 2 * config.objectSize⟩
        (2 * config.objectSize) := by
      constructor
      · simp only
        omega
      · simp only [Range.limit]
        omega
    simp only [State.findNUMA, memories, List.find?_cons,
      decide_eq_true contains, Option.map_some, Option.getD_some, Pool.node,
      Config.numaNodeId, isPlace] at node
    exact node
  · intro agrees state run
    have known : IsSorted config state :=
      run.invariant (IsSorted.initial config)
        fun _ _ _ known permitted taken => known.step agrees permitted taken
    exact known.isLocal agrees

/-- Two CPUs on each of two nodes; the process may use those of node 1 only. -/
def maskedNodes : Config where
  numaNodeCount := 2
  computePlaces := [⟨0, 0⟩, ⟨1, 0⟩, ⟨2, 1⟩, ⟨3, 1⟩]
  processCPUMask := fun systemCPUId => decide (2 ≤ systemCPUId)
  objectSize := 192
  size := twoNodes.size
  nodes := by decide

/-- CPU 2 has the cache of CPU 0, which keeps memory of node 1 for node 0. -/
theorem isLocal_fails :
    ¬ ∀ (config : Config) (state : State),
      Run (step config) (PermittedLocal config) {} state →
        state.IsLocal config := by
  intro holds
  let misplaced (state : State) : Bool :=
    decide (4288 ∈ state.pool (.available (some 0) 0)) &&
      decide (state.findNUMA maskedNodes 4288 = 1)
  obtain ⟨state, run, wrong⟩ :
      ∃ state, Run (step maskedNodes) (PermittedLocal maskedNodes) {} state ∧
        misplaced state = true :=
    exists_run_of_executeAllowed
      [.newObject (some 0) ⟨⟨4096, 384⟩, 1⟩] {} misplaced (by decide +kernel)
  simp only [misplaced, Bool.and_eq_true, decide_eq_true_eq] at wrong
  have right := (holds maskedNodes state run).pools _ 4288 wrong.1
  rw [wrong.2] at right
  cases right

end Nanos6.ObjectCache
