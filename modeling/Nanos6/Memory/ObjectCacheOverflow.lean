import Nanos6.Memory.ObjectCacheRuns

/-!
# The number of objects to allocate comes to 0

Two CPUs on different NUMA nodes.  The first one takes 64 objects, the second one
deletes them, which sends them back to the shared pool of the node of the first.
The first one finds them there when it needs objects again, so no memory is
requested, but the number of objects to allocate has doubled.  After 63 refills it
overflows to 0.
-/

namespace Nanos6.ObjectCache

open Foundation

/-- CPU 0 on node 0 and CPU 1 on node 1. -/
def twoNodes : Config where
  numaNodeCount := 2
  computePlaces := [⟨0, 0⟩, ⟨1, 1⟩]
  processCPUMask := fun _ => true
  objectSize := 192
  size := by decide
  nodes := by decide

/-- CPU 0 creates two objects, and CPU 1 deletes one of them. -/
def remoteDeletion : List Action :=
  let memory : Memory := ⟨⟨4096, 384⟩, 0⟩
  [.newObject (some 0) memory, .newObject (some 0) memory,
    .deleteObject (some 1) 4288]

theorem isConserved_remoteDeletion :
    ∃ state, Run (step twoNodes) (Permitted twoNodes) {} state ∧
      state.live = [4096] ∧ state.pool (.available (some 1) 0) = [4288] ∧
      state.IsConserved twoNodes := by
  let deleted (state : State) : Bool :=
    decide (state.live = [4096]) &&
      decide (state.pool (.available (some 1) 0) = [4288])
  obtain ⟨state, run, holds⟩ :
      ∃ state, Run (step twoNodes) (Permitted twoNodes) {} state ∧
        deleted state = true :=
    exists_run_of_executeAllowed remoteDeletion {} deleted (by decide +kernel)
  simp only [deleted, Bool.and_eq_true, decide_eq_true_eq] at holds
  exact ⟨state, run, holds.1, holds.2, isConserved_of_run run⟩

/-- The objects that CPU 0 takes next. -/
abbrev localPool : Pool := .available (some 0) 0

/-- The objects of node 0 that CPU 1 has deleted. -/
abbrev remotePool : Pool := .available (some 1) 0

abbrev Reaches : State → State → Prop :=
  Run (step twoNodes) fun _ _ => True

theorem Reaches.step {state next target : State} (action : Action)
    (taken : step twoNodes state action = some next)
    (rest : Reaches next target) : Reaches state target := by
  have first : Reaches state next := Run.single action trivial taken
  exact first.trans rest

/-- The CPU takes all objects of its pool. -/
theorem takeAll (objects : List Nat) (memory : Memory) {state : State}
    (here : state.pool localPool = objects) :
    ∃ next, Reaches state next ∧ next.pool localPool = [] ∧
      next.live = objects.reverse ++ state.live ∧
      (∀ pool, pool ≠ localPool → next.pool pool = state.pool pool) ∧
      next.allocationSize = state.allocationSize ∧
      next.memories = state.memories := by
  induction objects generalizing state with
  | nil => exact ⟨state, .refl state, here, rfl, fun _ _ => rfl, rfl, rfl⟩
  | cons object rest inductionHypothesis =>
      let taken : State :=
        { state.setPool localPool rest with live := object :: state.live }
      have isTaken : ObjectCache.step twoNodes state
          (.newObject (some 0) memory) = some taken := by
        have full : state.pool localPool ≠ [] := by
          rw [here]
          exact List.cons_ne_nil _ _
        change (if state.pool localPool = [] then _ else
          some (state.takeFront localPool)) = _
        rw [if_neg full, State.takeFront, here]
      have after : taken.pool localPool = rest := by simp [taken]
      obtain ⟨next, run, empty, live, others, size, memories⟩ :=
        inductionHypothesis after
      refine ⟨next, .step _ isTaken run, empty, ?_, ?_, size, memories⟩
      · rw [live, List.reverse_cons, List.append_assoc]
        rfl
      · intro pool differ
        rw [others pool differ]
        exact state.pool_setPool_of_ne rest differ

/-- A refill, after which the CPU takes all objects. -/
theorem refillAndTakeAll {state filled : State} {memory : Memory}
    {objects : List Nat} (empty : state.pool localPool = [])
    (refilled : state.refill twoNodes (some 0) memory = some filled)
    (here : filled.pool localPool = objects) (full : objects ≠ []) :
    ∃ next, Reaches state next ∧ next.pool localPool = [] ∧
      next.live = objects.reverse ++ filled.live ∧
      (∀ pool, pool ≠ localPool → next.pool pool = filled.pool pool) ∧
      next.allocationSize = filled.allocationSize ∧
      next.memories = filled.memories := by
  obtain ⟨object, rest, rfl⟩ := List.exists_cons_of_ne_nil full
  let taken : State :=
    { filled.setPool localPool rest with live := object :: filled.live }
  have isTaken : ObjectCache.step twoNodes state
      (.newObject (some 0) memory) = some taken := by
    change (if state.pool localPool = [] then
      (state.refill twoNodes (some 0) memory).map
        fun filled => filled.takeFront localPool
      else _) = _
    rw [if_pos empty, refilled, Option.map_some, State.takeFront, here]
  have after : taken.pool localPool = rest := by simp [taken]
  obtain ⟨next, run, emptied, live, others, size, memories⟩ :=
    takeAll rest memory after
  refine ⟨next, .step _ isTaken run, emptied, ?_, ?_, size, memories⟩
  · rw [live, List.reverse_cons, List.append_assoc]
    rfl
  · intro pool differ
    rw [others pool differ]
    exact filled.pool_setPool_of_ne rest differ

/-- The other CPU deletes objects until there are 64, which go back. -/
theorem deleteAll (objects deleted rest : List Nat) {state : State}
    (live : state.live = objects ++ rest)
    (home : ∀ object ∈ objects, state.findNUMA twoNodes object = 0)
    (remote : state.pool remotePool = deleted)
    (count : objects.length + deleted.length = 64) (full : objects ≠ []) :
    ∃ next, Reaches state next ∧ next.pool remotePool = [] ∧
      next.pool (.numa 0) =
        state.pool (.numa 0) ++ (objects.reverse ++ deleted) ∧
      next.pool localPool = state.pool localPool ∧
      next.allocationSize = state.allocationSize ∧
      next.memories = state.memories := by
  induction objects generalizing state deleted with
  | nil => exact absurd rfl full
  | cons object others inductionHypothesis =>
      let erased : State :=
        { state.setPool remotePool (object :: deleted) with
          live := others ++ rest }
      have isHome := home object List.mem_cons_self
      have isDeleted : ObjectCache.step twoNodes state
          (.deleteObject (some 1) object) = some
            (if (object :: deleted).length = 64 then
              erased.returnObjects 0 remotePool
            else erased) := by
        have inUse : object ∈ state.live := by
          rw [live]
          exact List.mem_cons_self
        have isErased :
            { state.setPool remotePool (object :: state.pool remotePool) with
              live := state.live.erase object } = erased := by
          simp [erased, live, remote]
        simp only [ObjectCache.step, State.deleteObject, isHome, isErased]
        rw [if_pos ⟨rfl, inUse⟩, State.pool_setPool_self, remote]
        simp [twoNodes, Config.numaNodeId]
      by_cases last : others = []
      · subst last
        simp only [List.length_cons, List.length_nil, Nat.zero_add] at count
        rw [if_pos (by rw [List.length_cons]; omega)] at isDeleted
        refine ⟨_, .step _ isDeleted (.refl _), ?_, ?_, ?_, rfl, rfl⟩
        · simp [State.returnObjects]
        · simp [State.returnObjects, State.setPool, erased]
        · simp [State.returnObjects, State.setPool, erased]
      · have more := List.length_pos_of_ne_nil last
        rw [List.length_cons] at count
        rw [if_neg (by rw [List.length_cons]; omega)] at isDeleted
        have after : erased.pool remotePool = object :: deleted := by
          simp [erased]
        have isLive : erased.live = others ++ rest := rfl
        have homes : ∀ other ∈ others,
            erased.findNUMA twoNodes other = 0 := fun other member =>
          home other (List.mem_cons_of_mem _ member)
        obtain ⟨next, run, emptied, numa, stays, size, memories⟩ :=
          inductionHypothesis (object :: deleted) isLive homes after
            (by rw [List.length_cons]; omega) last
        refine ⟨next, .step _ isDeleted run, emptied, ?_, ?_, size,
          memories⟩
        · rw [numa, List.reverse_cons, List.append_assoc]
          simp [erased, State.setPool]
        · rw [stays]
          simp [erased, State.setPool]

/-! ## Refills with recycled objects -/

/-- All objects of the first CPU are in the shared pool. -/
structure State.IsRecycling (state : State) (allocationSize : Nat) :
    Prop where
  empty : state.pool localPool = []
  remote : state.pool remotePool = []
  count : (state.pool (.numa 0)).length = 64
  home : ∀ object ∈ state.pool (.numa 0), state.findNUMA twoNodes object = 0
  size : state.allocationSize (some 0) = allocationSize

/-- A refill is served by the shared pool. -/
theorem refill_recycled {state : State} {allocationSize : Nat}
    (recycling : state.IsRecycling allocationSize)
    (large : 64 ≤ allocationSize * 2) (fits : allocationSize * 2 < sizeLimit)
    (memory : Memory) :
    ∃ filled, state.refill twoNodes (some 0) memory = some filled ∧
      filled.pool localPool = (state.pool (.numa 0)).reverse ∧
      filled.pool (.numa 0) = [] ∧
      filled.pool remotePool = state.pool remotePool ∧
      filled.live = state.live ∧ filled.memories = state.memories ∧
      filled.allocationSize (some 0) = allocationSize * 2 := by
  have node : twoNodes.numaNodeId (some 0) = 0 := rfl
  have doubled : state.allocationSize (some 0) * 2 % sizeLimit =
      allocationSize * 2 := by
    rw [recycling.size, Nat.mod_eq_of_lt fits]
  have all : min (allocationSize * 2) (state.pool (.numa 0)).length = 64 := by
    rw [recycling.count]
    exact Nat.min_eq_right large
  unfold State.refill
  simp only [node, doubled, State.fillCPUPool, all, recycling.empty,
    List.append_nil]
  rw [if_neg (by decide)]
  refine ⟨_, rfl, ?_, ?_, ?_, rfl, rfl, ?_⟩
  · have whole : (state.pool (.numa 0)).take 64 = state.pool (.numa 0) :=
      List.take_of_length_le (Nat.le_of_eq recycling.count)
    simp [State.setPool, whole]
  · simp [State.setPool, recycling.count]
  · simp [State.setPool]
  · simp [State.setPool]

/-- CPU 0 takes the objects of the shared pool and CPU 1 gives them back. -/
theorem recycle {state : State} {allocationSize : Nat}
    (recycling : state.IsRecycling allocationSize)
    (large : 64 ≤ allocationSize * 2)
    (fits : allocationSize * 2 < sizeLimit) :
    ∃ next, Reaches state next ∧ next.IsRecycling (allocationSize * 2) := by
  obtain ⟨filled, refilled, here, numa, remote, live, memories, size⟩ :=
    refill_recycled recycling large fits ⟨⟨0, 0⟩, 0⟩
  have full : (state.pool (.numa 0)).reverse ≠ [] := by
    apply List.ne_nil_of_length_pos
    rw [List.length_reverse, recycling.count]
    decide
  obtain ⟨taken, run, empty, inUse, others, sizes, sameMemories⟩ :=
    refillAndTakeAll recycling.empty refilled here full
  rw [List.reverse_reverse] at inUse
  have memoriesTaken : taken.memories = state.memories :=
    sameMemories.trans memories
  have home : ∀ object ∈ state.pool (.numa 0),
      taken.findNUMA twoNodes object = 0 := by
    intro object member
    unfold State.findNUMA
    rw [memoriesTaken]
    exact recycling.home object member
  have remoteTaken : taken.pool remotePool = [] := by
    rw [others remotePool (by decide), remote, recycling.remote]
  have numaTaken : taken.pool (.numa 0) = [] := by
    rw [others (.numa 0) (by decide), numa]
  have some_ : state.pool (.numa 0) ≠ [] := by
    apply List.ne_nil_of_length_pos
    rw [recycling.count]
    decide
  obtain ⟨next, rest, emptied, back, stays, sameSizes, same⟩ :=
    deleteAll (state.pool (.numa 0)) [] filled.live inUse home remoteTaken
      (by rw [recycling.count]; rfl) some_
  rw [numaTaken, List.nil_append, List.append_nil] at back
  refine ⟨next, run.trans rest, ?_⟩
  exact
    { empty := stays.trans empty
      remote := emptied
      count := by rw [back, List.length_reverse, recycling.count]
      home := by
        intro object member
        rw [back, List.mem_reverse] at member
        unfold State.findNUMA
        rw [same]
        exact home object member
      size := by rw [sameSizes, sizes, size] }

theorem recycles (count : Nat) {state : State}
    (recycling : state.IsRecycling 64) (fits : 2 ^ (6 + count) < sizeLimit) :
    ∃ next, Reaches state next ∧ next.IsRecycling (2 ^ (6 + count)) := by
  induction count with
  | zero => exact ⟨state, .refl state, recycling⟩
  | succ count inductionHypothesis =>
      have before : 2 ^ (6 + count) * 2 = 2 ^ (6 + (count + 1)) := by
        rw [← Nat.pow_succ]
        rfl
      have large : 64 ≤ 2 ^ (6 + count) := by
        have more : 2 ^ 6 ≤ 2 ^ (6 + count) :=
          Nat.pow_le_pow_right Nat.two_pos (Nat.le_add_right ..)
        exact more
      obtain ⟨middle, run, again⟩ := inductionHypothesis (by omega)
      obtain ⟨next, rest, done⟩ := recycle again (by omega) (by omega)
      rw [before] at done
      exact ⟨next, run.trans rest, done⟩

/-! ## Refills with new memory -/

/-- The first CPU has used up the objects of its first refills, which were in
new memory. -/
structure State.IsGrowing (state : State) (refills : Nat) : Prop where
  empty : state.pool localPool = []
  remote : state.pool remotePool = []
  numa : state.pool (.numa 0) = []
  size : state.allocationSize (some 0) = 2 ^ refills
  memories : ∀ memory ∈ state.memories, memory.node = 0 ∧
    memory.range.limit ≤ 2 ^ (refills + 1) * 192

/-- Memory for as many objects, after that of the earlier refills. -/
def memoryFor (count : Nat) : Memory :=
  ⟨⟨count * 192, count * 192⟩, 0⟩

/-- A refill is served by new memory. -/
theorem refill_new {state : State} {refills : Nat}
    (growing : state.IsGrowing refills) (few : refills < 6) :
    ∃ filled, state.refill twoNodes (some 0)
        (memoryFor (2 ^ (refills + 1))) = some filled ∧
      filled.pool localPool = chunksFrom (2 ^ (refills + 1) * 192) 192
        (2 ^ (refills + 1)) ∧
      filled.pool (.numa 0) = [] ∧ filled.pool remotePool = [] ∧
      filled.live = state.live ∧
      filled.memories = memoryFor (2 ^ (refills + 1)) :: state.memories ∧
      filled.allocationSize (some 0) = 2 ^ (refills + 1) := by
  have node : twoNodes.numaNodeId (some 0) = 0 := rfl
  have small : 2 ^ (refills + 1) ≤ 64 := by
    have more : 2 ^ (refills + 1) ≤ 2 ^ 6 :=
      Nat.pow_le_pow_right Nat.two_pos few
    exact more
  have doubled : state.allocationSize (some 0) * 2 % sizeLimit =
      2 ^ (refills + 1) := by
    rw [growing.size, ← Nat.pow_succ]
    exact Nat.mod_eq_of_lt (lt_of_le_of_lt small (by decide))
  have fits : 2 ^ (refills + 1) * 192 % sizeLimit =
      2 ^ (refills + 1) * 192 := by
    apply Nat.mod_eq_of_lt
    exact lt_of_le_of_lt (Nat.mul_le_mul_right _ small) (by decide)
  have fresh : (memoryFor (2 ^ (refills + 1))).range.limit < sizeLimit := by
    have bound := Nat.mul_le_mul_right 192 small
    change 2 ^ (refills + 1) * 192 + 2 ^ (refills + 1) * 192 < sizeLimit
    have limit : 64 * 192 + 64 * 192 < sizeLimit := by decide
    omega
  have apart : state.memories.all (fun other =>
      (memoryFor (2 ^ (refills + 1))).range.isApart other.range) = true := by
    rw [List.all_eq_true]
    intro other member
    have before := (growing.memories other member).2
    simp [Range.isApart, memoryFor, before]
  unfold State.refill
  simp only [node, doubled, State.fillCPUPool, growing.numa, growing.empty,
    List.length_nil, Nat.min_zero, Nat.zero_mod, if_true, List.take_zero,
    List.reverse_nil, List.append_nil, List.drop_zero]
  rw [if_pos]
  · refine ⟨_, rfl, ?_, ?_, ?_, rfl, rfl, ?_⟩
    · simp [State.allocate, State.setPool, memoryFor, twoNodes]
    · simp [State.allocate, State.setPool]
    · simp [State.allocate, State.setPool, growing.remote]
    · simp [State.allocate, State.setPool]
  · simp only [State.isFresh, Bool.and_eq_true, beq_iff_eq,
      decide_eq_true_eq]
    exact ⟨⟨⟨fits.symm, fresh⟩, Nat.zero_le _⟩, apart⟩

theorem grow {state : State} {refills : Nat}
    (growing : state.IsGrowing refills) (few : refills < 6) :
    ∃ next, Reaches state next ∧ next.IsGrowing (refills + 1) ∧
      next.live = (chunksFrom (2 ^ (refills + 1) * 192) 192
        (2 ^ (refills + 1))).reverse ++ state.live ∧
      memoryFor (2 ^ (refills + 1)) ∈ next.memories := by
  obtain ⟨filled, refilled, here, numa, remote, live, memories, size⟩ :=
    refill_new growing few
  have full : chunksFrom (2 ^ (refills + 1) * 192) 192
      (2 ^ (refills + 1)) ≠ [] := by
    apply List.ne_nil_of_length_pos
    rw [length_chunksFrom]
    exact Nat.two_pow_pos _
  obtain ⟨next, run, empty, inUse, others, sizes, sameMemories⟩ :=
    refillAndTakeAll growing.empty refilled here full
  rw [live] at inUse
  rw [memories] at sameMemories
  refine ⟨next, run, ?_, inUse, ?_⟩
  · exact
      { empty := empty
        remote := by rw [others remotePool (by decide), remote]
        numa := by rw [others (.numa 0) (by decide), numa]
        size := by rw [sizes, size]
        memories := by
          intro memory member
          rw [sameMemories] at member
          rcases List.mem_cons.mp member with rfl | old
          · refine ⟨rfl, ?_⟩
            change 2 ^ (refills + 1) * 192 + 2 ^ (refills + 1) * 192 ≤ _
            rw [Nat.pow_succ 2 (refills + 1)]
            omega
          · obtain ⟨home, bound⟩ := growing.memories memory old
            refine ⟨home, bound.trans (Nat.mul_le_mul_right _ ?_)⟩
            exact Nat.pow_le_pow_right Nat.two_pos (Nat.le_succ _) }
  · rw [sameMemories]
    exact List.mem_cons_self

theorem grows (refills : Nat) (few : refills ≤ 6) :
    ∃ state, Reaches {} state ∧ state.IsGrowing refills ∧
      (0 < refills → ∃ rest,
        state.live = (chunksFrom (2 ^ refills * 192) 192
          (2 ^ refills)).reverse ++ rest ∧
        memoryFor (2 ^ refills) ∈ state.memories) := by
  induction refills with
  | zero =>
      refine ⟨{}, .refl _, ⟨rfl, rfl, rfl, rfl, by simp⟩, ?_⟩
      intro impossible
      exact absurd impossible (Nat.lt_irrefl _)
  | succ refills inductionHypothesis =>
      obtain ⟨before, run, growing, -⟩ := inductionHypothesis (by omega)
      obtain ⟨next, rest, grown, live, member⟩ := grow growing few
      exact ⟨next, run.trans rest, grown, fun _ => ⟨_, live, member⟩⟩

/-- The shared pool has 64 objects for the first time. -/
theorem recycling_of_growing :
    ∃ state, Reaches {} state ∧ state.IsRecycling 64 := by
  obtain ⟨grown, run, growing, more⟩ := grows 6 le_rfl
  obtain ⟨rest, live, member⟩ := more (by decide)
  have home : ∀ object ∈ (chunksFrom (2 ^ 6 * 192) 192 (2 ^ 6)).reverse,
      grown.findNUMA twoNodes object = 0 := by
    intro object isObject
    rw [List.mem_reverse] at isObject
    have contains : (memoryFor (2 ^ 6)).range.Contains object :=
      contains_chunksFrom (by decide) isObject
    unfold State.findNUMA
    cases found : grown.memories.find? fun memory =>
        decide (memory.range.Contains object) with
    | none =>
        have outside := List.find?_eq_none.mp found _ member
        exact absurd (decide_eq_true contains) outside
    | some memory =>
        exact (growing.memories memory (List.mem_of_find?_eq_some found)).1
  obtain ⟨state, last, emptied, back, stays, sizes, memories⟩ :=
    deleteAll _ [] rest live home growing.remote
      (by rw [List.length_reverse, length_chunksFrom]; rfl)
      (by
        apply List.ne_nil_of_length_pos
        rw [List.length_reverse, length_chunksFrom]
        decide)
  rw [growing.numa, List.nil_append, List.append_nil,
    List.reverse_reverse] at back
  refine ⟨state, run.trans last, ?_⟩
  exact
    { empty := stays.trans growing.empty
      remote := emptied
      count := by rw [back, length_chunksFrom]; rfl
      home := by
        intro object isObject
        rw [back] at isObject
        unfold State.findNUMA
        rw [memories]
        exact home object (List.mem_reverse.mpr isObject)
      size := by rw [sizes, growing.size]; rfl }

/-- The front of an empty pool is taken, after a request of 0 bytes. -/
theorem isConserved_fails :
    ¬ ∀ (config : Config) (state : State),
      Run (step config) (fun _ _ => True) {} state →
        state.IsConserved config := by
  intro holds
  obtain ⟨warm, first, recycling⟩ := recycling_of_growing
  obtain ⟨full, second, last⟩ := recycles 57 recycling (by decide)
  have doubled : full.allocationSize (some 0) * 2 % sizeLimit = 0 := by
    rw [last.size]
    decide
  have node : twoNodes.numaNodeId (some 0) = 0 := rfl
  have place : twoNodes.isPlace (some 0) = true := rfl
  have nothing : full.memories.all (fun other =>
      Range.isApart ⟨0, 0⟩ other.range) = true := by
    simp [Range.isApart]
  have taken : ∃ next, step twoNodes full
      (.newObject (some 0) ⟨⟨0, 0⟩, 0⟩) = some next ∧
      next.tookFromEmpty = true := by
    simp only [step, place, State.newObject, State.refill, node, doubled,
      State.fillCPUPool, last.empty, if_true, Nat.zero_min, Nat.zero_mod,
      List.take_zero, List.reverse_nil, List.append_nil, List.drop_zero,
      Nat.zero_mul]
    rw [if_pos]
    · refine ⟨_, rfl, ?_⟩
      simp [State.takeFront, State.allocate, State.setPool, chunksFrom]
    · simp only [State.isFresh, Bool.and_eq_true]
      exact ⟨⟨⟨rfl, by decide⟩, by decide⟩, nothing⟩
  obtain ⟨next, isTaken, wrong⟩ := taken
  have run : Reaches {} next :=
    first.trans (second.trans (Reaches.step _ isTaken (.refl next)))
  have right := (holds twoNodes next run).full
  rw [wrong] at right
  cases right

end Nanos6.ObjectCache
