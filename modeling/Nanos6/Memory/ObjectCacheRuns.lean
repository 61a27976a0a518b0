import Nanos6.Memory.ObjectCache

/-!
# Objects are in one pool or in use

The operations of the caches pass objects between the pools and the program, and
put those in new memory into a pool.  The number of objects to allocate doubles
with every refill, also with those that recycled objects have served, and comes to
0 after 64 of them; until then a refill leaves an object to take.
-/

namespace Nanos6.ObjectCache

open Foundation

/-- A pool, or none for the objects in use. -/
abbrev Bag := Option Pool

def State.contents (state : State) : Bag → List Nat
  | none => state.live
  | some pool => state.pool pool

structure Invariant (config : Config) (state : State) : Prop where
  bagged : Bagged state.contents state.objects
  /-- The objects lie in memory from the allocator. -/
  within : ∀ object ∈ state.objects,
    ∃ memory ∈ state.memories, memory.range.Contains object
  apart : state.memories.Pairwise fun first second =>
    first.range.Disjoint second.range
  requests : ∀ allocationSize ∈ state.requests,
    0 < allocationSize ∧ allocationSize * config.objectSize < sizeLimit
  full : state.tookFromEmpty = false

namespace Invariant

variable {config : Config} {state : State}

theorem initial (config : Config) : Invariant config {} where
  bagged := by
    have same : State.contents {} = fun _ => [] := by
      funext bag
      cases bag <;> rfl
    rw [same]
    exact Bagged.empty
  within := by simp
  apart := List.Pairwise.nil
  requests := by simp
  full := rfl

/-- Objects are passed between two bags. -/
theorem exchange (invariant : Invariant config state) {next : State}
    (first second : Bag) (differ : first ≠ second)
    (same : ∀ bag, bag ≠ first → bag ≠ second →
      next.contents bag = state.contents bag)
    (moved : (next.contents first ++ next.contents second).Perm
      (state.contents first ++ state.contents second))
    (objects : next.objects = state.objects)
    (memories : next.memories = state.memories)
    (requests : next.requests = state.requests)
    (full : next.tookFromEmpty = state.tookFromEmpty) :
    Invariant config next where
  bagged := by
    rw [objects]
    exact invariant.bagged.exchange differ same moved
  within := by
    rw [objects, memories]
    exact invariant.within
  apart := by
    rw [memories]
    exact invariant.apart
  requests := by
    rw [requests]
    exact invariant.requests
  full := full.trans invariant.full

theorem contents_setPool (state : State) (pool : Pool) (objects : List Nat)
    (bag : Bag) (differ : bag ≠ some pool) :
    (state.setPool pool objects).contents bag = state.contents bag := by
  cases bag with
  | none => rfl
  | some other =>
      refine Function.update_of_ne ?_ ..
      rintro rfl
      exact differ rfl

theorem fillCPUPool (invariant : Invariant config state) (place : Place)
    (node localNode requestedObjects : Nat) :
    Invariant config (state.fillCPUPool node (.available place localNode)
      requestedObjects).1 := by
  unfold State.fillCPUPool
  simp only
  apply invariant.exchange (some (.available place localNode))
    (some (.numa node))
  · simp
  · intro bag notLocal notNuma
    rw [contents_setPool _ _ _ _ notNuma, contents_setPool _ _ _ _ notLocal]
  · generalize min requestedObjects (state.pool (.numa node)).length = count
    simp only [State.contents, State.setPool, Function.update_self, ne_eq,
      reduceCtorEq, not_false_eq_true, Function.update_of_ne]
    have whole := List.take_append_drop count (state.pool (.numa node))
    calc ((state.pool (.numa node)).take count).reverse ++
            state.pool (.available place localNode) ++
            (state.pool (.numa node)).drop count
        |>.Perm (state.pool (.available place localNode) ++
            (state.pool (.numa node)).take count ++
            (state.pool (.numa node)).drop count) :=
          (((List.reverse_perm _).append_right _).trans
            List.perm_append_comm).append_right _
      _ = state.pool (.available place localNode) ++
            state.pool (.numa node) := by
          rw [List.append_assoc, whole]
  · rfl
  · rfl
  · rfl
  · rfl

/-- The objects that a refill has moved. -/
theorem pool_fillCPUPool (state : State) (place : Place)
    (node localNode requestedObjects : Nat) :
    (state.fillCPUPool node (.available place localNode)
      requestedObjects).1.pool (.available place localNode) =
      ((state.pool (.numa node)).take (min requestedObjects
        (state.pool (.numa node)).length)).reverse ++
        state.pool (.available place localNode) := by
  simp [State.fillCPUPool, State.setPool]

/-- New memory is cut into objects for a pool. -/
theorem allocate (invariant : Invariant config state) {memory : Memory}
    {allocationSize : Nat} (pool : Pool) (positive : 0 < allocationSize)
    (fits : allocationSize * config.objectSize < sizeLimit)
    (fresh : state.isFresh config memory
      (allocationSize * config.objectSize % sizeLimit) = true) :
    Invariant config
      (state.allocate config pool allocationSize memory) := by
  simp only [State.isFresh, Bool.and_eq_true, beq_iff_eq, decide_eq_true_eq,
    List.all_eq_true] at fresh
  obtain ⟨⟨⟨size, -⟩, -⟩, apart⟩ := fresh
  rw [Nat.mod_eq_of_lt fits] at size
  have inside : ∀ object ∈ chunksFrom memory.range.base config.objectSize
      allocationSize, memory.range.Contains object := by
    intro object member
    have contains := contains_chunksFrom config.size.1 member
    rw [← size] at contains
    exact contains
  refine ⟨?_, ?_, ?_, ?_, invariant.full⟩
  · apply invariant.bagged.extend (some pool)
    · intro bag differ
      cases bag with
      | none => rfl
      | some other => exact contents_setPool _ _ _ (some other) differ
    · simp only [State.contents, State.allocate, State.setPool,
        Function.update_self]
      exact List.perm_append_comm
    · exact nodup_chunksFrom _ _ config.size.1
    · intro object member old
      obtain ⟨other, isMemory, contains⟩ := invariant.within object old
      exact Range.disjoint_of_isApart (apart other isMemory) object
        (inside object member) contains
  · intro object member
    rcases List.mem_append.mp member with new | old
    · exact ⟨memory, List.mem_cons_self, inside object new⟩
    · obtain ⟨other, isMemory, contains⟩ := invariant.within object old
      exact ⟨other, List.mem_cons_of_mem _ isMemory, contains⟩
  · exact List.pairwise_cons.mpr ⟨fun other isMemory =>
      Range.disjoint_of_isApart (apart other isMemory), invariant.apart⟩
  · intro request member
    rcases List.mem_cons.mp member with rfl | old
    · exact ⟨positive, fits⟩
    · exact invariant.requests request old

/-- A refill leaves an object to take. -/
theorem refill (invariant : Invariant config state) {place : Place}
    {memory : Memory} {filled : State}
    (empty : state.pool (.available place (config.numaNodeId place)) = [])
    (permitted : Permitted config state (.newObject place memory))
    (taken : state.refill config place memory = some filled) :
    Invariant config filled ∧ filled.live = state.live ∧
      filled.pool (.available place (config.numaNodeId place)) ≠ [] := by
  simp only [Permitted, permits, State.allocates, empty, List.isEmpty_nil,
    Bool.true_and, Bool.or_eq_true, Bool.not_eq_true', beq_eq_false_iff_ne,
    Bool.and_eq_true, decide_eq_true_eq] at permitted
  let started : State :=
    { state with
      allocationSize := Function.update state.allocationSize place
        (state.allocationSize place * 2 % sizeLimit) }
  have startedInvariant : Invariant config started := { invariant with }
  have recycled := startedInvariant.fillCPUPool place
    (config.numaNodeId place) (config.numaNodeId place)
    (state.allocationSize place * 2 % sizeLimit)
  unfold State.refill at taken
  simp only at taken
  split at taken
  · rename_i none
    split at taken
    · rename_i fresh
      cases taken
      have fits := permitted.resolve_left (not_not_intro none)
      refine ⟨recycled.allocate _ fits.1 fits.2 fresh, rfl, ?_⟩
      apply List.ne_nil_of_length_pos
      simp only [State.allocate, State.setPool, Function.update_self,
        List.length_append, length_chunksFrom]
      exact Nat.add_pos_right _ fits.1
    · cases taken
  · rename_i some
    cases taken
    refine ⟨recycled, rfl, ?_⟩
    apply List.ne_nil_of_length_pos
    rw [pool_fillCPUPool, List.length_append, List.length_reverse,
      List.length_take]
    refine Nat.add_pos_left (Nat.pos_of_ne_zero fun nothing => some ?_) _
    change min (state.allocationSize place * 2 % sizeLimit)
      (state.pool (.numa (config.numaNodeId place))).length % 2 ^ 32 = 0
    rw [Nat.min_eq_left (Nat.min_le_right _ _)] at nothing
    change min (state.allocationSize place * 2 % sizeLimit)
      (state.pool (.numa (config.numaNodeId place))).length = 0 at nothing
    rw [nothing, Nat.zero_mod]

/-- An object is taken from a pool that is not empty. -/
theorem takeFront (invariant : Invariant config state) {pool : Pool}
    (full : state.pool pool ≠ []) :
    Invariant config (state.takeFront pool) ∧
      ∃ object, (state.takeFront pool).live = object :: state.live ∧
        object ∈ state.pool pool ∧ object ∉ state.live := by
  obtain ⟨object, rest, isPool⟩ := List.exists_cons_of_ne_nil full
  have taken : state.takeFront pool =
      { state.setPool pool rest with live := object :: state.live } := by
    unfold State.takeFront
    rw [isPool]
  have here : object ∈ state.pool pool := by
    rw [isPool]
    exact List.mem_cons_self
  rw [taken]
  refine ⟨?_, object, rfl, here, fun inUse => ?_⟩
  · apply invariant.exchange none (some pool)
    · simp
    · intro bag notLive notPool
      cases bag with
      | none => exact absurd rfl notLive
      | some other => exact contents_setPool _ _ _ (some other) notPool
    · simp only [State.contents, State.setPool, Function.update_self, isPool]
      exact List.perm_middle.symm
    · rfl
    · rfl
    · rfl
    · rfl
  · have same : (none : Bag) = some pool :=
      invariant.bagged.apart none (some pool) object inUse here
    cases same

theorem newObject (invariant : Invariant config state) {place : Place}
    {memory : Memory} {next : State}
    (permitted : Permitted config state (.newObject place memory))
    (taken : state.newObject config place memory = some next) :
    Invariant config next ∧
      ∃ object, next.live = object :: state.live ∧ object ∉ state.live := by
  unfold State.newObject at taken
  simp only at taken
  split at taken
  · rename_i empty
    obtain ⟨filled, refilled, rfl⟩ := Option.map_eq_some_iff.mp taken
    obtain ⟨known, live, full⟩ := invariant.refill empty permitted refilled
    obtain ⟨after, object, isLive, -, fresh⟩ := known.takeFront full
    rw [live] at isLive fresh
    exact ⟨after, object, isLive, fresh⟩
  · rename_i full
    cases taken
    obtain ⟨after, object, isLive, -, fresh⟩ := invariant.takeFront full
    exact ⟨after, object, isLive, fresh⟩

theorem returnObjects (invariant : Invariant config state) (node : Nat)
    (place : Place) (other : Nat) :
    Invariant config
      (state.returnObjects node (.available place other)) := by
  unfold State.returnObjects
  apply invariant.exchange (some (.numa node))
    (some (.available place other))
  · simp
  · intro bag notNuma notPool
    rw [contents_setPool _ _ _ _ notPool, contents_setPool _ _ _ _ notNuma]
  · simp only [State.contents, State.setPool, Function.update_self, ne_eq,
      reduceCtorEq, not_false_eq_true, Function.update_of_ne,
      List.append_nil]
    exact List.Perm.refl _
  · rfl
  · rfl
  · rfl
  · rfl

theorem deleteObject (invariant : Invariant config state) (place : Place)
    {object : Nat} (inUse : object ∈ state.live) :
    Invariant config (state.deleteObject config place object) := by
  let pool := Pool.available place (state.findNUMA config object)
  let deleted : State :=
    { state.setPool pool (object :: state.pool pool) with
      live := state.live.erase object }
  have known : Invariant config deleted := by
    apply invariant.exchange none (some pool)
    · simp
    · intro bag notLive notPool
      cases bag with
      | none => exact absurd rfl notLive
      | some other => exact contents_setPool _ _ _ (some other) notPool
    · simp only [deleted, State.contents, State.setPool,
        Function.update_self]
      exact List.perm_middle.trans
        ((List.perm_cons_erase inUse).symm.append_right _)
    · rfl
    · rfl
    · rfl
    · rfl
  unfold State.deleteObject
  simp only
  split
  · exact known.returnObjects _ _ _
  · exact known

theorem step (invariant : Invariant config state) {action : Action}
    {next : State} (permitted : Permitted config state action)
    (taken : step config state action = some next) :
    Invariant config next := by
  cases action with
  | newObject place memory =>
      simp only [ObjectCache.step] at taken
      split at taken
      · exact (invariant.newObject permitted taken).1
      · cases taken
  | deleteObject place object =>
      simp only [ObjectCache.step] at taken
      split at taken
      · rename_i allowed
        cases taken
        exact invariant.deleteObject place allowed.2
      · cases taken

end Invariant

/-! ## What the caches guarantee -/

structure State.IsConserved (config : Config) (state : State) : Prop where
  /-- Every object is in use or in exactly one pool. -/
  once : ∀ object ∈ state.objects, ∃! bag, object ∈ state.contents bag
  nodup : ∀ bag, (state.contents bag).Nodup
  full : state.tookFromEmpty = false
  /-- The number of bytes requested is not 0 and does not overflow. -/
  requests : ∀ allocationSize ∈ state.requests,
    0 < allocationSize * config.objectSize ∧
      allocationSize * config.objectSize < sizeLimit
  /-- An object that is returned was not in use. -/
  returned : ∀ place memory next,
    Permitted config state (.newObject place memory) →
    step config state (.newObject place memory) = some next →
      ∃ object, next.live = object :: state.live ∧ object ∉ state.live

theorem isConserved_of_run {config : Config} {state : State}
    (run : Run (step config) (Permitted config) {} state) :
    state.IsConserved config := by
  have invariant : Invariant config state :=
    run.invariant (Invariant.initial config)
      fun _ _ _ known permitted taken => known.step permitted taken
  refine ⟨?_, invariant.bagged.nodup, invariant.full, ?_, ?_⟩
  · intro object member
    obtain ⟨bag, inside⟩ := (invariant.bagged.mem_iff object).mp member
    exact ⟨bag, inside, fun other also =>
      invariant.bagged.apart other bag object also inside⟩
  · intro allocationSize member
    obtain ⟨positive, fits⟩ := invariant.requests allocationSize member
    exact ⟨Nat.mul_pos positive config.size.1, fits⟩
  · intro place memory next permitted taken
    simp only [step] at taken
    split at taken
    · exact (invariant.newObject permitted taken).2
    · cases taken

end Nanos6.ObjectCache
