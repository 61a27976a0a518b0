import Mathlib.Algebra.Order.Ring.Int
import Mathlib.Data.Fintype.Card
import Mathlib.Data.List.FinRange
import Mathlib.Data.List.Perm.Basic
import Mathlib.Data.Int.Basic
import Mathlib.Logic.Function.Basic
import Nanos6.Foundation.LabelledRun

/-!
# The slots of a list without order

A slot of a `ConcurrentUnorderedList` has several queues, each with a lock.  A call
takes the next position of a counter to choose a queue and goes on to the following
position while it finds the lock taken.  Two things go wrong after a while: a
`weak_pop` that finds its queue empty keeps the lock, and the counter becomes
negative.
-/

namespace Nanos6.ConcurrentUnorderedList

open Foundation

structure SlotIndexContents (α : Type) where
  locked : Bool := false
  queue : List α := []

/-- A slot with a number of queues, the `MAX_CONCURRENCY_PER_SLOT`. -/
structure SlotContents (α : Type) (concurrency : Nat) where
  nextPosition : Int := 0
  queues : Fin concurrency → SlotIndexContents α := fun _ => {}
  /-- Not in the source: the indices with which the queues have been accessed. -/
  indices : List Int := []

/-- What comes of a call, with the values that it returns or gives to the
consumer. -/
inductive Result (α : Type) (concurrency : Nat) where
  | completed (slot : SlotContents α concurrency) (values : List α)
  /-- An access outside of the array. -/
  | outOfBounds (slot : SlotContents α concurrency)
  /-- The iterations that were allowed for have not been enough. -/
  | spinning

variable {α : Type} {concurrency : Nat}

namespace SlotContents

/-- The position is taken from the counter, which is an atomic `int`. -/
def draw (slot : SlotContents α concurrency) :
    SlotContents α concurrency × Int :=
  let queueIndex := slot.nextPosition.tmod concurrency
  ({ slot with
      nextPosition := (slot.nextPosition + 1).bmod (2 ^ 32)
      indices := slot.indices ++ [queueIndex] },
    queueIndex)

def setLock (slot : SlotContents α concurrency) (index : Fin concurrency)
    (locked : Bool) : SlotContents α concurrency :=
  { slot with
    queues :=
      Function.update slot.queues index
        { slot.queues index with locked := locked } }

def setQueue (slot : SlotContents α concurrency) (index : Fin concurrency)
    (queue : List α) : SlotContents α concurrency :=
  { slot with
    queues :=
      Function.update slot.queues index
        { slot.queues index with queue := queue } }

/-- The values in all queues. -/
def stored (slot : SlotContents α concurrency) : List α :=
  (List.finRange concurrency).flatMap fun index => (slot.queues index).queue

end SlotContents

/-- An index within the array. -/
def toIndex (concurrency : Nat) (queueIndex : Int) :
    Option (Fin concurrency) :=
  if within : 0 ≤ queueIndex ∧ queueIndex.toNat < concurrency then
    some ⟨queueIndex.toNat, within.2⟩
  else none

/-! ## The calls -/

/-- The loops of `push` and `weak_consume_all`: positions are taken until
`tryLock` succeeds. -/
def acquire (body : SlotContents α concurrency → Fin concurrency →
      SlotContents α concurrency × List α) :
    Nat → SlotContents α concurrency → Result α concurrency
  | 0, _ => .spinning
  | fuel + 1, slot =>
      let (drawn, queueIndex) := slot.draw
      match toIndex concurrency queueIndex with
      | none => .outOfBounds drawn
      | some index =>
          if (drawn.queues index).locked then acquire body fuel drawn
          else
            let (done, values) := body (drawn.setLock index true) index
            .completed (done.setLock index false) values

def push (value : α) : Nat → SlotContents α concurrency →
    Result α concurrency :=
  acquire fun slot index =>
    (slot.setQueue index ((slot.queues index).queue ++ [value]), [])

def weakConsumeAll : Nat → SlotContents α concurrency →
    Result α concurrency :=
  acquire fun slot index =>
    (slot.setQueue index [], (slot.queues index).queue)

/-- The loop of `pop`. -/
def popLoop : Nat → Nat → (Fin concurrency → Bool) →
    SlotContents α concurrency → Result α concurrency
  | _, 0, _, slot => .completed slot []
  | 0, _ + 1, _, _ => .spinning
  | fuel + 1, remaining + 1, done, slot =>
      let (drawn, queueIndex) := slot.draw
      match toIndex concurrency queueIndex with
      | none => .outOfBounds drawn
      | some index =>
          if !done index && !(drawn.queues index).locked then
            let locked := drawn.setLock index true
            match (locked.queues index).queue with
            | value :: rest =>
                .completed ((locked.setQueue index rest).setLock index false)
                  [value]
            | [] =>
                popLoop fuel remaining (Function.update done index true)
                  (locked.setLock index false)
          else popLoop fuel (remaining + 1) done drawn

def pop (fuel : Nat) (slot : SlotContents α concurrency) :
    Result α concurrency :=
  popLoop fuel concurrency (fun _ => false) slot

/-- The lock of an empty queue is not released. -/
def weakPop (slot : SlotContents α concurrency) : Result α concurrency :=
  let (drawn, queueIndex) := slot.draw
  match toIndex concurrency queueIndex with
  | none => .outOfBounds drawn
  | some index =>
      if (drawn.queues index).locked then .completed drawn []
      else
        let locked := drawn.setLock index true
        match (locked.queues index).queue with
        | value :: rest =>
            .completed ((locked.setQueue index rest).setLock index false)
              [value]
        | [] => .completed locked []

/-- The loop of `consume_all`, which waits for every lock. -/
def consumeLoop : List (Fin concurrency) → SlotContents α concurrency →
    List α → Result α concurrency
  | [], slot, values => .completed slot values
  | index :: rest, slot, values =>
      let accessed :=
        { slot with indices := slot.indices ++ [(index.val : Int)] }
      if (accessed.queues index).locked then .spinning
      else
        let locked := accessed.setLock index true
        consumeLoop rest ((locked.setQueue index []).setLock index false)
          (values ++ (locked.queues index).queue)

def consumeAll (slot : SlotContents α concurrency) : Result α concurrency :=
  consumeLoop (List.finRange concurrency) slot []

inductive Call (α : Type) where
  | push (value : α)
  | pop
  | weakPop
  | consumeAll
  | weakConsumeAll

/-- A call on the slot, with the iterations that are allowed for. -/
def perform (slot : SlotContents α concurrency) (fuel : Nat) :
    Call α → Result α concurrency
  | .push value => push value fuel slot
  | .pop => pop fuel slot
  | .weakPop => weakPop slot
  | .consumeAll => consumeAll slot
  | .weakConsumeAll => weakConsumeAll fuel slot

def Call.pushed : Call α → List α
  | .push value => [value]
  | _ => []

/-! ## Sequences of calls -/

structure State (α : Type) (concurrency : Nat) where
  slot : SlotContents α concurrency := {}
  /-- The values of all calls of `push`. -/
  pushed : List α := []
  /-- The values that have been returned or consumed. -/
  taken : List α := []

/-- A call is made when no other one is in progress.  After an access outside of
the array nothing more is known. -/
def step (state : State α concurrency) (label : Call α × Nat) :
    Option (State α concurrency) :=
  match perform state.slot label.2 label.1 with
  | .completed slot values =>
      some
        { slot := slot
          pushed := state.pushed ++ label.1.pushed
          taken := state.taken ++ values }
  | .outOfBounds slot => some { state with slot := slot }
  | .spinning => none

/-- What is wanted of a slot between the calls. -/
structure State.IsSound (state : State α concurrency) : Prop where
  conserved : (state.slot.stored ++ state.taken).Perm state.pushed
  free : ∀ index, (state.slot.queues index).locked = false
  within : ∀ queueIndex ∈ state.slot.indices,
    0 ≤ queueIndex ∧ queueIndex < concurrency

/-- The position gives an index within the array. -/
def IsValid (concurrency : Nat) (position : Int) : Prop :=
  0 ≤ position ∨ (concurrency : Int) ∣ position

/-- What a position is when the counter has been incremented. -/
def advance (position : Int) : Int :=
  (position + 1).bmod (2 ^ 32)

namespace SlotContents

/-- The position that is taken after some others. -/
def position (slot : SlotContents α concurrency) (count : Nat) : Int :=
  advance^[count] slot.nextPosition

/-- The queue that is at the position. -/
def queueAt (slot : SlotContents α concurrency) (count : Nat) :
    Option (Fin concurrency) :=
  toIndex concurrency ((slot.position count).tmod concurrency)

/-- The loop of `pop` takes one more position: there is a queue that is not done
yet, and those at the positions before have been empty. -/
def Reaches (slot : SlotContents α concurrency)
    (done : Fin concurrency → Bool) (count : Nat) : Prop :=
  (∃ index, done index = false ∧
      ∀ earlier < count, slot.queueAt earlier ≠ some index) ∧
    ∀ earlier < count, ∀ index, slot.queueAt earlier = some index →
      done index = false → (slot.queues index).queue = []

end SlotContents

/-- Every position that the call takes gives an index within the array, and
`weak_pop` finds a value. -/
def Permitted (state : State α concurrency) (label : Call α × Nat) : Prop :=
  match label.1 with
  | .push _ | .weakConsumeAll => IsValid concurrency state.slot.nextPosition
  | .pop =>
      ∀ count, state.slot.Reaches (fun _ => false) count →
        IsValid concurrency (state.slot.position count)
  | .weakPop =>
      IsValid concurrency state.slot.nextPosition ∧
        ∀ index, state.slot.queueAt 0 = some index →
          (state.slot.queues index).queue ≠ []
  | .consumeAll => True

/-! ## What is in the queues -/

/-- The values of the queues when one of them has been replaced. -/
theorem perm_flatMap_update {ι : Type} [DecidableEq ι] (indices : List ι)
    (nodup : indices.Nodup) (contents : ι → List α) (index : ι)
    (member : index ∈ indices) (queue : List α) :
    (indices.flatMap (Function.update contents index queue) ++
        contents index).Perm
      (indices.flatMap contents ++ queue) := by
  induction indices with
  | nil => cases member
  | cons first rest inductionHypothesis =>
      obtain ⟨absent, nodupRest⟩ := List.nodup_cons.mp nodup
      rw [List.flatMap_cons, List.flatMap_cons]
      by_cases same : first = index
      · subst same
        have untouched :
            rest.flatMap (Function.update contents first queue) =
              rest.flatMap contents := by
          apply List.flatMap_congr
          intro other otherMember
          rw [Function.update_of_ne]
          rintro rfl
          exact absent otherMember
        rw [untouched, Function.update_self, List.append_assoc,
          List.append_assoc]
        refine List.perm_append_comm.trans ?_
        rw [List.append_assoc]
        exact (List.perm_append_comm_assoc _ _ _).trans (by rfl)
      · have inRest : index ∈ rest := by
          rcases List.mem_cons.mp member with equal | memberRest
          · exact absurd equal.symm same
          · exact memberRest
        rw [Function.update_of_ne same, List.append_assoc,
          List.append_assoc]
        exact (inductionHypothesis nodupRest inRest).append_left _

namespace SlotContents

theorem stored_setQueue (slot : SlotContents α concurrency)
    (index : Fin concurrency) (queue : List α) :
    ((slot.setQueue index queue).stored ++ (slot.queues index).queue).Perm
      (slot.stored ++ queue) := by
  have replaced :
      (slot.setQueue index queue).stored =
        (List.finRange concurrency).flatMap
          (Function.update (fun other => (slot.queues other).queue) index
            queue) := by
    unfold stored setQueue
    apply List.flatMap_congr
    intro other _
    by_cases same : other = index
    · subst same
      simp
    · simp [same]
  rw [replaced]
  exact perm_flatMap_update _ (List.nodup_finRange _) _ _
    (List.mem_finRange _) _

@[simp] theorem locked_setQueue (slot : SlotContents α concurrency)
    (index other : Fin concurrency) (queue : List α) :
    ((slot.setQueue index queue).queues other).locked =
      (slot.queues other).locked := by
  by_cases same : other = index
  · subst same
    simp [setQueue]
  · simp [setQueue, same]

@[simp] theorem queue_setLock (slot : SlotContents α concurrency)
    (index other : Fin concurrency) (locked : Bool) :
    ((slot.setLock index locked).queues other).queue =
      (slot.queues other).queue := by
  by_cases same : other = index
  · subst same
    simp [setLock]
  · simp [setLock, same]

/-- A lock that was free is free again. -/
theorem setLock_setLock (slot : SlotContents α concurrency)
    (index : Fin concurrency) (free : (slot.queues index).locked = false) :
    (slot.setLock index true).setLock index false = slot := by
  have restored :
      ({ slot.queues index with locked := false } : SlotIndexContents α) =
        slot.queues index := by
    rw [← free]
  simp [setLock, restored]

theorem setLock_setQueue_setLock (slot : SlotContents α concurrency)
    (index : Fin concurrency) (free : (slot.queues index).locked = false)
    (queue : List α) :
    ((slot.setLock index true).setQueue index queue).setLock index false =
      slot.setQueue index queue := by
  simp [setLock, setQueue, free]

end SlotContents

/-! ## Single calls -/

/-- What is wanted of the slot on its own. -/
structure SlotContents.IsSound (slot : SlotContents α concurrency) : Prop where
  free : ∀ index, (slot.queues index).locked = false
  within : ∀ queueIndex ∈ slot.indices,
    0 ≤ queueIndex ∧ queueIndex < concurrency

/-- A call that has come to an end leaves the slot as wanted, and has returned
what is no longer stored.  It does not come to an end only if `unfinished`. -/
def Result.Accounts (slot : SlotContents α concurrency) (pushed : List α)
    (unfinished : Prop) : Result α concurrency → Prop
  | .completed next values =>
      next.IsSound ∧
        (next.stored ++ values).Perm (slot.stored ++ pushed)
  | .outOfBounds _ => False
  | .spinning => unfinished

theorem Result.Accounts.mono {slot : SlotContents α concurrency}
    {pushed : List α} {unfinished weaker : Prop}
    {result : Result α concurrency}
    (accounts : result.Accounts slot pushed unfinished)
    (implied : unfinished → weaker) : result.Accounts slot pushed weaker := by
  cases result with
  | completed next values => exact accounts
  | outOfBounds next => exact accounts
  | spinning => exact implied accounts

theorem within_tmod (positive : 0 < concurrency) {position : Int}
    (valid : IsValid concurrency position) :
    0 ≤ position.tmod concurrency ∧
      position.tmod concurrency < concurrency := by
  rcases valid with nonnegative | divides
  · exact ⟨Int.tmod_nonneg _ nonnegative,
      Int.tmod_lt_of_pos _ (by exact_mod_cast positive)⟩
  · rw [Int.tmod_eq_zero_of_dvd divides]
    exact ⟨le_refl _, by exact_mod_cast positive⟩

/-- A valid position gives one of the queues. -/
theorem exists_queueAt (positive : 0 < concurrency)
    (slot : SlotContents α concurrency) (count : Nat)
    (valid : IsValid concurrency (slot.position count)) :
    ∃ index, slot.queueAt count = some index := by
  obtain ⟨lower, upper⟩ := within_tmod positive valid
  refine ⟨⟨((slot.position count).tmod concurrency).toNat, ?_⟩, ?_⟩
  · omega
  · unfold SlotContents.queueAt toIndex
    rw [dif_pos ⟨lower, by omega⟩]

theorem isSound_draw (positive : 0 < concurrency)
    {slot : SlotContents α concurrency} (sound : slot.IsSound)
    (valid : IsValid concurrency slot.nextPosition) :
    slot.draw.1.IsSound := by
  constructor
  · exact sound.free
  · intro queueIndex member
    rcases List.mem_append.mp member with earlier | drawn
    · exact sound.within _ earlier
    · rw [List.mem_singleton.mp drawn]
      exact within_tmod positive valid

theorem isSound_setQueue {slot : SlotContents α concurrency}
    (sound : slot.IsSound) (index : Fin concurrency) (queue : List α) :
    (slot.setQueue index queue).IsSound := by
  constructor
  · intro other
    rw [SlotContents.locked_setQueue]
    exact sound.free other
  · exact sound.within

/-- A queue of a sound slot has been exchanged for another one. -/
theorem accounts_setQueue {slot : SlotContents α concurrency}
    (sound : slot.IsSound) (index : Fin concurrency)
    {queue values pushed : List α}
    (balanced :
      (queue ++ values).Perm ((slot.queues index).queue ++ pushed)) :
    (Result.completed (slot.setQueue index queue) values).Accounts slot
      pushed False := by
  refine ⟨isSound_setQueue sound index queue, ?_⟩
  have replaced := slot.stored_setQueue index queue
  classical
  rw [List.perm_iff_count] at *
  intro value
  have first := balanced value
  have second := replaced value
  simp only [List.count_append] at *
  omega

/-- `push` and `weak_consume_all` find the lock free at once. -/
theorem acquire_of_isSound {slot : SlotContents α concurrency}
    (sound : slot.IsSound) {index : Fin concurrency}
    (found : slot.queueAt 0 = some index) (fuel : Nat)
    (exchange taken : List α → List α) :
    acquire
        (fun slot index =>
          (slot.setQueue index (exchange (slot.queues index).queue),
            taken (slot.queues index).queue))
        (fuel + 1) slot =
      .completed
        (slot.draw.1.setQueue index (exchange (slot.queues index).queue))
        (taken (slot.queues index).queue) := by
  have drawn : toIndex concurrency slot.draw.2 = some index := found
  have free : (slot.draw.1.queues index).locked = false := sound.free index
  unfold acquire
  simp only [drawn, free, Bool.false_eq_true, if_false,
    SlotContents.queue_setLock]
  rw [SlotContents.setLock_setQueue_setLock _ _ free]
  rfl

theorem accounts_acquire (positive : 0 < concurrency)
    {slot : SlotContents α concurrency} (sound : slot.IsSound)
    (valid : IsValid concurrency slot.nextPosition) (fuel : Nat)
    (exchange taken : List α → List α) {pushed : List α}
    (balanced : ∀ queue,
      (exchange queue ++ taken queue).Perm (queue ++ pushed)) :
    (acquire
        (fun slot index =>
          (slot.setQueue index (exchange (slot.queues index).queue),
            taken (slot.queues index).queue))
        fuel slot).Accounts slot pushed (fuel = 0) := by
  cases fuel with
  | zero => rfl
  | succ fuel =>
      obtain ⟨index, found⟩ := exists_queueAt positive slot 0 valid
      rw [acquire_of_isSound sound found]
      exact accounts_setQueue (isSound_draw positive sound valid) index
        (balanced _)

theorem accounts_weakPop (positive : 0 < concurrency)
    {slot : SlotContents α concurrency} (sound : slot.IsSound)
    (valid : IsValid concurrency slot.nextPosition)
    (nonempty : ∀ index, slot.queueAt 0 = some index →
      (slot.queues index).queue ≠ []) :
    (weakPop slot).Accounts slot [] False := by
  obtain ⟨index, found⟩ := exists_queueAt positive slot 0 valid
  have drawn : toIndex concurrency slot.draw.2 = some index := found
  have free : (slot.draw.1.queues index).locked = false := sound.free index
  obtain ⟨value, rest, queued⟩ :=
    List.exists_cons_of_ne_nil (nonempty index found)
  have queuedDrawn : (slot.draw.1.queues index).queue = value :: rest := queued
  unfold weakPop
  simp only [drawn, free, Bool.false_eq_true, if_false,
    SlotContents.queue_setLock, queuedDrawn]
  rw [SlotContents.setLock_setQueue_setLock _ _ free]
  apply accounts_setQueue (isSound_draw positive sound valid)
  rw [queuedDrawn, List.append_nil]
  exact List.perm_append_singleton value rest

theorem accounts_consumeLoop (indices : List (Fin concurrency))
    {slot start : SlotContents α concurrency} {values : List α}
    (sound : slot.IsSound)
    (balanced : (slot.stored ++ values).Perm start.stored) :
    (consumeLoop indices slot values).Accounts start [] False := by
  induction indices generalizing slot values with
  | nil =>
      refine ⟨sound, ?_⟩
      rw [List.append_nil]
      exact balanced
  | cons index rest inductionHypothesis =>
      have accessed :
          { slot with
            indices := slot.indices ++ [(index.val : Int)] }.IsSound := by
        constructor
        · exact sound.free
        · intro queueIndex member
          rcases List.mem_append.mp member with earlier | last
          · exact sound.within _ earlier
          · rw [List.mem_singleton.mp last]
            exact ⟨by omega, by exact_mod_cast index.isLt⟩
      have free := accessed.free index
      unfold consumeLoop
      simp only [sound.free index, Bool.false_eq_true, if_false,
        SlotContents.queue_setLock]
      rw [SlotContents.setLock_setQueue_setLock _ _ free]
      apply inductionHypothesis (isSound_setQueue accessed index [])
      have exchanged :=
        SlotContents.stored_setQueue
          { slot with indices := slot.indices ++ [(index.val : Int)] }
          index []
      rw [List.append_nil] at exchanged
      refine (List.Perm.append_left _ List.perm_append_comm).trans ?_
      rw [← List.append_assoc]
      exact (exchanged.append_right values).trans balanced

/-! ## The loop of `pop` -/

theorem reaches_of_draw {slot : SlotContents α concurrency}
    {done next : Fin concurrency → Bool} {index : Fin concurrency}
    (found : slot.queueAt 0 = some index)
    (passed : done index = false → (slot.queues index).queue = [])
    (marked : ∀ other,
      next other = false ↔ done other = false ∧ other ≠ index)
    {count : Nat} (reached : slot.draw.1.Reaches next count) :
    slot.Reaches done (count + 1) := by
  obtain ⟨⟨left, pending, avoided⟩, empty⟩ := reached
  obtain ⟨pendingBefore, differs⟩ := (marked left).mp pending
  constructor
  · refine ⟨left, pendingBefore, ?_⟩
    intro earlier before
    cases earlier with
    | zero =>
        rw [found]
        intro same
        exact differs (Option.some.inj same).symm
    | succ earlier => exact avoided earlier (by omega)
  · intro earlier before other otherFound waiting
    cases earlier with
    | zero =>
        rw [found] at otherFound
        cases otherFound
        exact passed waiting
    | succ earlier =>
        by_cases same : other = index
        · subst same
          exact passed waiting
        · exact empty earlier (by omega) other otherFound
            ((marked other).mpr ⟨waiting, same⟩)

/-- One iteration, with the lock of the queue free. -/
theorem popLoop_of_isSound {slot : SlotContents α concurrency}
    (sound : slot.IsSound) {index : Fin concurrency}
    (found : slot.queueAt 0 = some index) (fuel remaining : Nat)
    (done : Fin concurrency → Bool) :
    popLoop (fuel + 1) (remaining + 1) done slot =
      if done index = true then popLoop fuel (remaining + 1) done slot.draw.1
      else
        match (slot.queues index).queue with
        | value :: rest =>
            .completed (slot.draw.1.setQueue index rest) [value]
        | [] =>
            popLoop fuel remaining (Function.update done index true)
              slot.draw.1 := by
  have drawn : toIndex concurrency slot.draw.2 = some index := found
  have free : (slot.draw.1.queues index).locked = false := sound.free index
  have same : (slot.draw.1.queues index).queue = (slot.queues index).queue :=
    rfl
  rw [popLoop]
  simp only [drawn, free, Bool.not_false, Bool.and_true,
    Bool.not_eq_true', SlotContents.queue_setLock, same]
  cases done index with
  | true => rfl
  | false =>
      rw [if_pos rfl, if_neg Bool.false_ne_true]
      cases (slot.queues index).queue with
      | nil =>
          simp only
          rw [SlotContents.setLock_setLock _ _ free]
      | cons value rest =>
          simp only
          rw [SlotContents.setLock_setQueue_setLock _ _ free]

/-- As many queues are left as the loop counts. -/
theorem card_update {done : Fin concurrency → Bool} {index : Fin concurrency}
    (waiting : done index = false) {remaining : Nat}
    (counted :
      (Finset.univ.filter fun other => done other = false).card =
        remaining + 1) :
    (Finset.univ.filter fun other =>
        Function.update done index true other = false).card = remaining := by
  have erased :
      (Finset.univ.filter fun other =>
          Function.update done index true other = false) =
        (Finset.univ.filter fun other => done other = false).erase index := by
    ext other
    by_cases same : other = index
    · subst same
      simp
    · simp [same]
  rw [erased, Finset.card_erase_of_mem (by simpa using waiting), counted]
  rfl

/-- The loop takes a position while there are queues left. -/
theorem reaches_zero {done : Fin concurrency → Bool} {remaining : Nat}
    {slot : SlotContents α concurrency}
    (counted :
      (Finset.univ.filter fun index => done index = false).card =
        remaining + 1) :
    slot.Reaches done 0 := by
  have left :
      0 < (Finset.univ.filter fun index => done index = false).card := by
    omega
  obtain ⟨index, member⟩ := Finset.card_pos.mp left
  constructor
  · refine ⟨index, (Finset.mem_filter.mp member).2, ?_⟩
    intro earlier before
    omega
  · intro earlier before
    omega

theorem accounts_popLoop (positive : 0 < concurrency) (fuel remaining : Nat)
    (done : Fin concurrency → Bool) (slot : SlotContents α concurrency)
    (sound : slot.IsSound)
    (counted :
      (Finset.univ.filter fun index => done index = false).card = remaining)
    (valid : ∀ count, slot.Reaches done count →
      IsValid concurrency (slot.position count)) :
    (popLoop fuel remaining done slot).Accounts slot []
      (slot.Reaches done fuel) := by
  induction fuel generalizing remaining done slot with
  | zero =>
      cases remaining with
      | zero => exact ⟨sound, List.Perm.refl _⟩
      | succ remaining => exact reaches_zero counted
  | succ fuel inductionHypothesis =>
      cases remaining with
      | zero => exact ⟨sound, List.Perm.refl _⟩
      | succ remaining =>
          have validNow := valid 0 (reaches_zero counted)
          obtain ⟨index, found⟩ := exists_queueAt positive slot 0 validNow
          have soundDrawn := isSound_draw positive sound validNow
          rw [popLoop_of_isSound sound found]
          split
          · rename_i marked
            have later {count : Nat}
                (next : slot.draw.1.Reaches done count) :
                slot.Reaches done (count + 1) := by
              refine reaches_of_draw found ?_ ?_ next
              · intro waiting
                rw [marked] at waiting
                cases waiting
              · intro other
                refine ⟨fun waiting => ⟨waiting, ?_⟩, And.left⟩
                rintro rfl
                rw [marked] at waiting
                cases waiting
            have continued := inductionHypothesis (remaining + 1) done
              slot.draw.1 soundDrawn counted
              (fun count next => valid (count + 1) (later next))
            exact continued.mono later
          · rename_i unmarked
            have waiting : done index = false := by simpa using unmarked
            split
            · rename_i value rest queued
              refine Result.Accounts.mono
                (accounts_setQueue soundDrawn index ?_) False.elim
              have queuedDrawn :
                  (slot.draw.1.queues index).queue = value :: rest := queued
              rw [queuedDrawn, List.append_nil]
              exact List.perm_append_singleton value rest
            · rename_i queued
              have later {count : Nat}
                  (next : slot.draw.1.Reaches (Function.update done index true)
                    count) :
                  slot.Reaches done (count + 1) := by
                refine reaches_of_draw found (fun _ => queued) ?_ next
                intro other
                by_cases same : other = index
                · subst same
                  simp
                · simp [same]
              have continued := inductionHypothesis remaining
                (Function.update done index true) slot.draw.1 soundDrawn
                (card_update waiting counted)
                (fun count next => valid (count + 1) (later next))
              exact continued.mono later

/-- The iterations that are allowed for are not enough for the call. -/
def SlotContents.Unfinished (slot : SlotContents α concurrency) :
    Call α × Nat → Prop
  | (.push _, fuel) | (.weakConsumeAll, fuel) => fuel = 0
  | (.pop, fuel) => slot.Reaches (fun _ => false) fuel
  | (.weakPop, _) | (.consumeAll, _) => False

theorem accounts_perform (positive : 0 < concurrency)
    {state : State α concurrency} (sound : state.slot.IsSound)
    (label : Call α × Nat) (permitted : Permitted state label) :
    (perform state.slot label.2 label.1).Accounts state.slot
      label.1.pushed (state.slot.Unfinished label) := by
  obtain ⟨call, fuel⟩ := label
  cases call with
  | push value =>
      refine accounts_acquire positive sound permitted fuel
        (fun queue => queue ++ [value]) (fun _ => []) ?_
      intro queue
      show (queue ++ [value] ++ []).Perm (queue ++ [value])
      rw [List.append_nil]
  | pop =>
      refine accounts_popLoop positive fuel concurrency _ state.slot sound ?_
        permitted
      simp
  | weakPop =>
      exact accounts_weakPop positive sound permitted.1 permitted.2
  | consumeAll =>
      refine accounts_consumeLoop (List.finRange concurrency) sound ?_
      rw [List.append_nil]
  | weakConsumeAll =>
      refine accounts_acquire positive sound permitted fuel
        (fun _ => []) id ?_
      intro queue
      show ([] ++ queue).Perm (queue ++ [])
      rw [List.append_nil, List.nil_append]

/-! ## Whole sequences of calls -/

theorem isSound_step (positive : 0 < concurrency)
    {state next : State α concurrency} {label : Call α × Nat}
    (sound : state.IsSound) (permitted : Permitted state label)
    (taken : step state label = some next) : next.IsSound := by
  have accounts :=
    accounts_perform positive ⟨sound.free, sound.within⟩ label permitted
  unfold step at taken
  split at taken
  · rename_i slot values performed
    rw [performed] at accounts
    obtain ⟨soundSlot, balanced⟩ := accounts
    cases taken
    refine ⟨?_, soundSlot.free, soundSlot.within⟩
    show (slot.stored ++ (state.taken ++ values)).Perm
      (state.pushed ++ label.1.pushed)
    refine (List.Perm.append_left _ List.perm_append_comm).trans ?_
    rw [← List.append_assoc]
    refine (balanced.append_right _).trans ?_
    rw [List.append_assoc]
    refine (List.Perm.append_left _ List.perm_append_comm).trans ?_
    rw [← List.append_assoc]
    exact sound.conserved.append_right _
  · rename_i slot performed
    rw [performed] at accounts
    exact accounts.elim
  · cases taken

theorem isSound_initial : (({} : State α concurrency)).IsSound := by
  have empty : ({} : SlotContents α concurrency).stored = [] := by
    unfold SlotContents.stored
    simp
  refine ⟨?_, fun _ => rfl, ?_⟩
  · show (({} : SlotContents α concurrency).stored ++ []).Perm []
    rw [empty, List.append_nil]
  · intro queueIndex member
    cases member

/-- As long as `weak_pop` finds a value and the counter gives indices of the
array, no value is lost or returned twice and no lock is kept. -/
theorem soundSlot_of_run (positive : 0 < concurrency)
    {state : State α concurrency}
    (run : Run step Permitted ({} : State α concurrency) state) :
    state.IsSound :=
  run.invariant isSound_initial fun _ _ _ sound permitted taken =>
    isSound_step positive sound permitted taken

/-- Two values are pushed, and one of them is taken with each kind of `pop`. -/
theorem isSound_two_values :
    ∃ state : State Nat 2, Run step Permitted {} state ∧
      state.taken = [7, 8] ∧ state.IsSound := by
  have nonnegative {position : Int} (lower : 0 ≤ position) :
      IsValid 2 position := Or.inl lower
  have first : Run step Permitted ({} : State Nat 2) _ :=
    Run.single (.push 7, 1) (nonnegative (by decide)) rfl
  have second := first.tail
    (show Permitted _ (.push 8, 1) from nonnegative (by decide)) rfl
  have third := second.tail
    (show Permitted _ (.weakPop, 0) from
      ⟨nonnegative (by decide), by
        intro index found
        cases found
        decide⟩) rfl
  have fourth := third.tail
    (show Permitted _ (.pop, 1) from by
      intro count reached
      cases count with
      | zero => exact nonnegative (by decide)
      | succ count =>
          have empty := reached.2 0 (by omega) 1 rfl rfl
          cases empty) rfl
  exact ⟨_, fourth, rfl, soundSlot_of_run (by decide) fourth⟩

/-- A `weak_pop` on the empty list keeps the lock of the first queue. -/
theorem isSound_fails_weakPop :
    ¬ ∀ state : State Nat 2, Run step (fun _ _ => True) {} state →
      state.IsSound := by
  intro sound
  have run : Run step (fun _ _ => True) ({} : State Nat 2) _ :=
    Run.single (.weakPop, 0) trivial rfl
  have free := (sound _ run).free 0
  cases free

/-! ## The counter -/

theorem iterate_advance (position : Int) (count : Nat) :
    advance^[count + 1] position =
      (position + (count + 1 : Nat)).bmod (2 ^ 32) := by
  induction count with
  | zero => rfl
  | succ count inductionHypothesis =>
      rw [Function.iterate_succ_apply', inductionHypothesis]
      unfold advance
      rw [Int.bmod_add_bmod]
      congr 1
      omega

/-- The counter goes through all nonnegative values of an `int`. -/
theorem exists_position (slot : SlotContents α concurrency) {value : Nat}
    (fits : value < 2 ^ 31) :
    ∃ count < 2 ^ 33, slot.position count = value := by
  obtain ⟨distance, distance_eq⟩ :=
    Int.eq_ofNat_of_zero_le
      (Int.emod_nonneg (value - slot.nextPosition)
        (show (4294967296 : Int) ≠ 0 by decide))
  have reached :
      slot.nextPosition + (distance + (2 ^ 32 - 1) + 1 : Nat) =
        value + (2 ^ 32 : Nat) *
          (1 - (value - slot.nextPosition) / 4294967296) := by
    omega
  refine ⟨distance + (2 ^ 32 - 1) + 1, by omega, ?_⟩
  unfold SlotContents.position
  rw [iterate_advance, reached, Int.add_mul_bmod_self_left]
  exact Int.bmod_eq_of_le (by omega) (by omega)

/-- With enough iterations every permitted call comes to an end. -/
theorem completes_of_permitted (positive : 0 < concurrency)
    (fits : concurrency ≤ 2 ^ 31) {state : State α concurrency}
    (sound : state.IsSound) {label : Call α × Nat}
    (permitted : Permitted state label) (enough : 2 ^ 33 ≤ label.2) :
    ∃ slot values, perform state.slot label.2 label.1 =
      .completed slot values := by
  have accounts :=
    accounts_perform positive ⟨sound.free, sound.within⟩ label permitted
  cases performed : perform state.slot label.2 label.1 with
  | completed slot values => exact ⟨slot, values, rfl⟩
  | outOfBounds slot =>
      rw [performed] at accounts
      exact accounts.elim
  | spinning =>
      rw [performed] at accounts
      exfalso
      obtain ⟨call, fuel⟩ := label
      cases call with
      | push value =>
          have exhausted : fuel = 0 := accounts
          simp only [exhausted] at enough
          omega
      | pop =>
          -- every queue is found at some position, so none is left
          obtain ⟨⟨index, -, avoided⟩, -⟩ := accounts
          obtain ⟨count, early, found⟩ :=
            exists_position state.slot (lt_of_lt_of_le index.isLt fits)
          apply avoided count (lt_of_lt_of_le early enough)
          unfold SlotContents.queueAt toIndex
          have small : (index.val : Int).tmod concurrency = index.val :=
            Int.tmod_eq_of_lt (by omega) (by exact_mod_cast index.isLt)
          rw [found, small, dif_pos ⟨by omega, by simp⟩]
          rfl
      | weakPop => exact accounts
      | consumeAll => exact accounts
      | weakConsumeAll =>
          have exhausted : fuel = 0 := accounts
          simp only [exhausted] at enough
          omega

/-- A value is in the first of two queues, and `pop` begins with the second. -/
theorem completes_pop :
    ∃ state : State Nat 2, step {} (.push 7, 1) = some state ∧
      ∃ slot values, perform state.slot (2 ^ 33) .pop =
        .completed slot values := by
  let state : State Nat 2 := (step {} (.push 7, 1)).getD {}
  have taken : step {} (.push 7, 1) = some state := rfl
  have valid : Permitted ({} : State Nat 2) (.push 7, 1) := Or.inl le_rfl
  have sound := isSound_step (by decide) isSound_initial valid taken
  have permitted : Permitted state (.pop, 2 ^ 33) := by
    intro count reached
    match count with
    | 0 => exact Or.inl (by decide)
    | 1 => exact Or.inl (by decide)
    | count + 2 => cases reached.2 1 (by omega) 0 rfl rfl
  exact ⟨state, taken,
    completes_of_permitted (by decide) (by decide) sound permitted le_rfl⟩

end Nanos6.ConcurrentUnorderedList
