import Nanos6.Foundation.Placement
import Nanos6.Scheduling.PriorityScheduler

/-!
# No ready task is lost

A task that has been added and not returned yet is in exactly one place: in a
priority class, in the immediate successor slot of a CPU, in a polling slot, or
in the hands of a call in progress.  A polling slot is in use as long as it is
registered, has been taken by a call that is going to store a task in it, or
holds a task.  The waiting call that owns the slot must not leave while it is in
use.
-/

namespace Nanos6.Scheduling

open Foundation

/-- The task that a call has in its hands. -/
def Call.carries : Call → Option TaskId
  | .addReadyTask add => some add.task
  | .takePollingSlot add => some add.task
  | .lockGlobal add => some add.task
  | .storeTask add _ _ => some add.task
  | .pushTask _ task _ _ _ => some task
  | .testTask _ _ task => task
  | .testMustExit _ _ task => task
  | .releasePolling _ _ task _ => task
  | .cpuBecomesIdle _ _ task _ => task
  | .checkAcceptsWork _ _ task => task
  | .lastGetTask _ _ task => task
  | .queueDisabled _ task => some task
  | _ => none

/-- The slot that a waiting call polls. -/
def Call.polls : Call → Option SlotId
  | .testTask _ slot _ => some slot
  | .testAcceptsWork _ slot => some slot
  | .getTask _ slot => some slot
  | .testMustExit _ slot _ => some slot
  | .releasePolling _ slot _ _ => some slot
  | .cpuBecomesIdle _ slot _ _ => some slot
  | .checkAcceptsWork _ slot _ => some slot
  | .lastGetTask _ slot _ => some slot
  | _ => none

/-- The slot that a call has taken and not filled yet. -/
def Call.stores : Call → Option SlotId
  | .storeTask _ slot _ => some slot
  | _ => none

/-- The call has released its slot because the CPU does not accept work. -/
def Call.hasReleased : Call → Bool
  | .cpuBecomesIdle _ _ _ _ => true
  | .lastGetTask _ _ _ => true
  | _ => false

/-- A place that holds at most one task. -/
inductive Holder where
  | successor (cpu : CPU)
  | slot (slot : SlotId)
  | call (id : CallId)
  deriving DecidableEq

namespace System

def carries (system : System) (id : CallId) : Option TaskId :=
  (system.call id).bind Call.carries

def polls (system : System) (id : CallId) : Option SlotId :=
  (system.call id).bind Call.polls

def stores (system : System) (id : CallId) : Option SlotId :=
  (system.call id).bind Call.stores

def hasReleased (system : System) (id : CallId) : Bool :=
  (system.call id).any Call.hasReleased

/-- Some call is going to store a task in the slot. -/
def isStoring (system : System) (slot : SlotId) : Bool :=
  (List.range system.nextCall).any fun id => system.stores id == some slot

end System

/-- What the immediate successor slots, the polling slots and the calls
hold. -/
def contentOf (schedulerData : CPU → Option TaskId)
    (slots : SlotId → Option TaskId) (calls : CallId → Option Call) :
    Holder → Option TaskId
  | .successor cpu => schedulerData cpu
  | .slot slot => slots slot
  | .call id => (calls id).bind Call.carries

def System.content (system : System) : Holder → Option TaskId :=
  contentOf system.schedulerData system.slot system.call

section Content

variable (schedulerData : CPU → Option TaskId)
  (slots : SlotId → Option TaskId) (calls : CallId → Option Call)

theorem contentOf_successor (cpu : CPU) (task : Option TaskId) :
    contentOf (Function.update schedulerData cpu task) slots calls =
      Function.update (contentOf schedulerData slots calls) (.successor cpu)
        task := by
  funext holder
  cases holder with
  | successor other =>
      by_cases same : other = cpu
      · simp [contentOf, same]
      · simp [contentOf, same]
  | slot slot => simp [contentOf]
  | call id => simp [contentOf]

theorem contentOf_slot (slot : SlotId) (task : Option TaskId) :
    contentOf schedulerData (Function.update slots slot task) calls =
      Function.update (contentOf schedulerData slots calls) (.slot slot)
        task := by
  funext holder
  cases holder with
  | successor cpu => simp [contentOf]
  | slot other =>
      by_cases same : other = slot
      · simp [contentOf, same]
      · simp [contentOf, same]
  | call id => simp [contentOf]

theorem contentOf_call (id : CallId) (call : Option Call) :
    contentOf schedulerData slots (Function.update calls id call) =
      Function.update (contentOf schedulerData slots calls) (.call id)
        (call.bind Call.carries) := by
  funext holder
  cases holder with
  | successor cpu => simp [contentOf]
  | slot slot => simp [contentOf]
  | call other =>
      by_cases same : other = id
      · simp [contentOf, same]
      · simp [contentOf, same]

end Content

/-! ## The classes -/

theorem queuedTasks_lock (key : Int) (classes : List PriorityClass) :
    queuedTasks (withClass key PriorityClass.lock classes) =
      queuedTasks classes := by
  induction classes with
  | nil => rfl
  | cons first rest inductionHypothesis =>
      simp only [withClass]
      split
      · rfl
      · split
        · rfl
        · simpa [queuedTasks] using inductionHypothesis

theorem queuedTasks_push (key : Int) (front : Bool) (task : TaskId)
    (classes : List PriorityClass) :
    (queuedTasks (withClass key (PriorityClass.push front task)
      classes)).Perm (task :: queuedTasks classes) := by
  have pushed : ∀ priorityClass : PriorityClass,
      (priorityClass.push front task).queue.Perm
        (task :: priorityClass.queue) := by
    intro priorityClass
    cases front with
    | true => exact List.Perm.refl _
    | false => exact List.perm_append_singleton task priorityClass.queue
  induction classes with
  | nil => simpa [queuedTasks, withClass] using pushed { key := key }
  | cons first rest inductionHypothesis =>
      simp only [withClass]
      split
      · simpa [queuedTasks] using
          (pushed { key := key }).append_right (queuedTasks (first :: rest))
      · split
        · simpa [queuedTasks] using
            (pushed first).append_right (queuedTasks rest)
        · have moved :=
            (inductionHypothesis.append_left first.queue).trans
              List.perm_middle
          simpa [queuedTasks] using moved

/-- The outcomes of the choice between the immediate successor of a CPU and the
first class. -/
inductive Chooses (system : System) (cpu : CPU) :
    System → Option TaskId → Prop
  | nothing : system.classes = [] → system.schedulerData cpu = none →
      Chooses system cpu system none
  | successor {successor : TaskId} :
      system.schedulerData cpu = some successor →
      Chooses system cpu
        { system with
          schedulerData := Function.update system.schedulerData cpu none }
        (some successor)
  | queued {task : TaskId} {popped : List PriorityClass} :
      system.schedulerData cpu = none →
      (queuedTasks system.classes).Perm (task :: queuedTasks popped) →
      Chooses system cpu { system with classes := popped } (some task)
  | exchanged {task successor : TaskId} {popped : List PriorityClass} :
      system.schedulerData cpu = some successor →
      (queuedTasks system.classes).Perm (task :: queuedTasks popped) →
      Chooses system cpu
        { system.recordsQueued successor with
          classes :=
            withClass (negated (system.priority successor))
              (PriorityClass.push false successor) popped
          schedulerData := Function.update system.schedulerData cpu none }
        (some task)

theorem chooses_of_chooseTask {system next : System} {cpu : CPU}
    {task : Option TaskId}
    (chosen : system.chooseTask cpu = some (next, task)) :
    Chooses system cpu next task := by
  unfold System.chooseTask at chosen
  split at chosen
  · rename_i noClass
    split at chosen
    · rename_i noSuccessor
      cases chosen
      exact .nothing noClass noSuccessor
    · rename_i successor found
      cases chosen
      exact .successor found
  · rename_i first rest classes
    split at chosen
    · rename_i front others unlocked queue
      have popped : (queuedTasks system.classes).Perm
          (front :: queuedTasks
            (if others.isEmpty then rest
            else { first with queue := others } :: rest)) := by
        rw [classes]
        split
        · rename_i empty
          rw [List.isEmpty_iff] at empty
          simp [queuedTasks, queue, empty]
        · simp [queuedTasks, queue]
      dsimp only at chosen
      generalize (if others.isEmpty then rest
        else { first with queue := others } :: rest) = left at chosen popped
      split at chosen
      · rename_i noSuccessor
        cases chosen
        exact .queued noSuccessor popped
      · rename_i successor found
        split at chosen
        · split at chosen
          · cases chosen
          · cases chosen
            exact .exchanged found popped
        · cases chosen
          exact .successor found
    · cases chosen

/-! ## The owners of the polling slots -/

/-- The slot is registered, is going to be filled, or holds a task. -/
def System.Uses (system : System) (slot : SlotId) : Prop :=
  system.pollingSlot = some slot ∨ (∃ id, system.stores id = some slot) ∨
    system.slot slot ≠ none

structure SlotsOwned (system : System) : Prop where
  fresh : ∀ id, system.nextCall ≤ id → system.call id = none
  bound : ∀ id slot, system.polls id = some slot → slot < system.nextSlot
  unique : ∀ id other slot, system.polls id = some slot →
    system.polls other = some slot → id = other
  /-- The owner of a slot in use has not got a task from it yet. -/
  owned : ∀ slot, system.Uses slot →
    ∃ id, system.polls id = some slot ∧ system.carries id = none
  registered : ∀ slot, system.pollingSlot = some slot →
    system.slot slot = none ∧ ∀ id, system.stores id ≠ some slot
  taken : ∀ id slot, system.stores id = some slot →
    system.slot slot = none ∧
      ∀ other, system.stores other = some slot → other = id
  released : ∀ id slot, system.hasReleased id = true →
    system.polls id = some slot → system.pollingSlot ≠ some slot

namespace SlotsOwned

variable {system next : System} {id : CallId} {call : Call}

/-- The projections of a call, for the calls of `next`. -/
theorem bind_update {Value : Type} (f : Call → Option Value)
    {new : Option Call}
    (calls : next.call = Function.update system.call id new)
    (other : CallId) :
    (next.call other).bind f =
      if other = id then new.bind f else (system.call other).bind f := by
  rw [calls]
  by_cases same : other = id
  · simp [same]
  · simp [same]

theorem any_update (f : Call → Bool) {new : Option Call}
    (calls : next.call = Function.update system.call id new)
    (other : CallId) :
    (next.call other).any f =
      if other = id then new.any f else (system.call other).any f := by
  rw [calls]
  by_cases same : other = id
  · simp [same]
  · simp [same]

/-- A call that neither polls a slot nor stores in one goes on, ends or
starts. -/
theorem plain (owned : SlotsOwned system) {new : Option Call}
    (calls : next.call = Function.update system.call id new)
    (old : system.polls id = none ∧ system.stores id = none)
    (stays : new.bind Call.polls = none ∧ new.bind Call.stores = none)
    (bounds : system.nextCall ≤ next.nextCall ∧ id < next.nextCall)
    (slots : next.slot = system.slot ∧ next.nextSlot = system.nextSlot ∧
      next.pollingSlot = system.pollingSlot) : SlotsOwned next := by
  have polls : ∀ other, next.polls other = system.polls other := by
    intro other
    by_cases same : other = id
    · rw [same, old.1]
      simp [System.polls, bind_update Call.polls calls, stays.1]
    · simp [System.polls, bind_update Call.polls calls, same]
  have stores : ∀ other, next.stores other = system.stores other := by
    intro other
    by_cases same : other = id
    · rw [same, old.2]
      simp [System.stores, bind_update Call.stores calls, stays.2]
    · simp [System.stores, bind_update Call.stores calls, same]
  -- Only the call itself can carry something else, and it owns no slot.
  have carries : ∀ other slot, system.polls other = some slot →
      next.carries other = system.carries other ∧
        next.hasReleased other = system.hasReleased other := by
    intro other slot polling
    have differ : other ≠ id := by
      rintro rfl
      rw [old.1] at polling
      cases polling
    simp [System.carries, System.hasReleased, bind_update Call.carries calls,
      any_update Call.hasReleased calls, differ]
  exact
    { fresh := by
        intro other above
        have differ : other ≠ id := by
          rintro rfl
          exact Nat.not_lt.mpr above bounds.2
        rw [calls, Function.update_of_ne differ]
        exact owned.fresh other (Nat.le_trans bounds.1 above)
      bound := by
        intro other slot polling
        rw [polls] at polling
        rw [slots.2.1]
        exact owned.bound other slot polling
      unique := by
        intro first second slot one two
        rw [polls] at one two
        exact owned.unique first second slot one two
      owned := by
        intro slot uses
        have used : system.Uses slot := by
          unfold System.Uses at uses ⊢
          simpa only [slots.1, slots.2.2, stores] using uses
        obtain ⟨owner, polling, none⟩ := owned.owned slot used
        refine ⟨owner, by rw [polls, polling], ?_⟩
        rw [(carries owner slot polling).1, none]
      registered := by
        intro slot isRegistered
        rw [slots.2.2] at isRegistered
        rw [slots.1]
        simpa only [stores] using owned.registered slot isRegistered
      taken := by
        intro other slot storing
        rw [stores] at storing
        rw [slots.1]
        simpa only [stores] using owned.taken other slot storing
      released := by
        intro other slot hasReleased polling
        rw [polls] at polling
        rw [(carries other slot polling).2] at hasReleased
        rw [slots.2.2]
        exact owned.released other slot hasReleased polling }

/-- The owner of a slot goes on, with what it has. -/
theorem moves (owned : SlotsOwned system) {new : Call} {slot : SlotId}
    (calls : next.call = Function.update system.call id (some new))
    (found : system.call id = some call)
    (polling : call.polls = some slot) (same : new.polls = some slot)
    (carried : new.carries = call.carries)
    (released : new.hasReleased = true → next.pollingSlot ≠ some slot)
    (slots : next.slot = system.slot ∧ next.nextSlot = system.nextSlot ∧
      next.nextCall = system.nextCall)
    (registration : next.pollingSlot = system.pollingSlot ∨
      system.pollingSlot = some slot ∧ next.pollingSlot = none) :
    SlotsOwned next := by
  have notStoring : ∀ {call : Call}, call.polls = some slot →
      call.stores = none := by
    intro call polls
    cases call <;> first | rfl | cases polls
  have polls : ∀ other, next.polls other = system.polls other := by
    intro other
    by_cases here : other = id
    · simp [here, System.polls, bind_update Call.polls calls, found, polling,
        same]
    · simp [System.polls, bind_update Call.polls calls, here]
  have stores : ∀ other, next.stores other = system.stores other := by
    intro other
    by_cases here : other = id
    · simp [here, System.stores, bind_update Call.stores calls, found,
        notStoring polling, notStoring same]
    · simp [System.stores, bind_update Call.stores calls, here]
  have carries : ∀ other, next.carries other = system.carries other := by
    intro other
    by_cases here : other = id
    · simp [here, System.carries, bind_update Call.carries calls, found,
        carried]
    · simp [System.carries, bind_update Call.carries calls, here]
  have registers : ∀ other, next.pollingSlot = some other →
      system.pollingSlot = some other := by
    intro other isRegistered
    rcases registration with kept | ⟨-, gone⟩
    · rw [← kept, isRegistered]
    · rw [gone] at isRegistered
      cases isRegistered
  exact
    { fresh := by
        intro other above
        rw [slots.2.2] at above
        have differ : other ≠ id := by
          rintro rfl
          rw [owned.fresh other above] at found
          cases found
        rw [calls, Function.update_of_ne differ]
        exact owned.fresh other above
      bound := by
        intro other slot polling
        rw [polls] at polling
        rw [slots.2.1]
        exact owned.bound other slot polling
      unique := by
        intro first second slot one two
        rw [polls] at one two
        exact owned.unique first second slot one two
      owned := by
        intro other uses
        have used : system.Uses other := by
          rcases uses with isRegistered | storing | full
          · exact Or.inl (registers other isRegistered)
          · exact Or.inr (Or.inl (by simpa only [stores] using storing))
          · exact Or.inr (Or.inr (by simpa only [slots.1] using full))
        obtain ⟨owner, polling, none⟩ := owned.owned other used
        exact ⟨owner, by rw [polls, polling], by rw [carries, none]⟩
      registered := by
        intro other isRegistered
        rw [slots.1]
        simpa only [stores] using
          owned.registered other (registers other isRegistered)
      taken := by
        intro other slot storing
        rw [stores] at storing
        rw [slots.1]
        simpa only [stores] using owned.taken other slot storing
      released := by
        intro other position hasReleased polls' isRegistered
        have before := registers position isRegistered
        by_cases here : other = id
        · subst here
          have samePosition : position = slot := by
            simpa [System.polls, bind_update Call.polls calls, same]
              using polls'.symm
          subst samePosition
          simp only [System.hasReleased, any_update Call.hasReleased calls,
            if_true, Option.any_some] at hasReleased
          exact released hasReleased isRegistered
        · rw [polls] at polls'
          have earlier : system.hasReleased other = true := by
            simpa [System.hasReleased, any_update Call.hasReleased calls,
              here] using hasReleased
          exact owned.released other position earlier polls' before }

/-- A call that adds a task takes the registered slot. -/
theorem takes (owned : SlotsOwned system) {new : Call} {slot : SlotId}
    (calls : next.call = Function.update system.call id (some new))
    (found : system.call id = some call)
    (plain : call.polls = none ∧ call.stores = none)
    (storing : new.polls = none ∧ new.stores = some slot)
    (isRegistered : system.pollingSlot = some slot)
    (slots : next.slot = system.slot ∧ next.nextSlot = system.nextSlot ∧
      next.nextCall = system.nextCall ∧ next.pollingSlot = none) :
    SlotsOwned next := by
  obtain ⟨empty, unstored⟩ := owned.registered slot isRegistered
  have polls : ∀ other, next.polls other = system.polls other := by
    intro other
    by_cases here : other = id
    · simp [here, System.polls, bind_update Call.polls calls, found, plain.1,
        storing.1]
    · simp [System.polls, bind_update Call.polls calls, here]
  have stores : ∀ other, next.stores other =
      if other = id then some slot else system.stores other := by
    intro other
    simp [System.stores, bind_update Call.stores calls, storing.2]
  have carries : ∀ other position, system.polls other = some position →
      next.carries other = system.carries other := by
    intro other position polling
    have differ : other ≠ id := by
      rintro rfl
      simp [System.polls, found, plain.1] at polling
    simp [System.carries, bind_update Call.carries calls, differ]
  exact
    { fresh := by
        intro other above
        rw [slots.2.2.1] at above
        have differ : other ≠ id := by
          rintro rfl
          rw [owned.fresh other above] at found
          cases found
        rw [calls, Function.update_of_ne differ]
        exact owned.fresh other above
      bound := by
        intro other position polling
        rw [polls] at polling
        rw [slots.2.1]
        exact owned.bound other position polling
      unique := by
        intro first second position one two
        rw [polls] at one two
        exact owned.unique first second position one two
      owned := by
        intro position uses
        have used : system.Uses position := by
          rcases uses with isRegistered' | ⟨other, isStoring⟩ | full
          · rw [slots.2.2.2] at isRegistered'
            cases isRegistered'
          · rw [stores] at isStoring
            split at isStoring
            · cases isStoring
              exact Or.inl isRegistered
            · exact Or.inr (Or.inl ⟨other, isStoring⟩)
          · exact Or.inr (Or.inr (by simpa only [slots.1] using full))
        obtain ⟨owner, polling, none⟩ := owned.owned position used
        exact ⟨owner, by rw [polls, polling],
          by rw [carries owner position polling, none]⟩
      registered := by
        intro position isRegistered'
        rw [slots.2.2.2] at isRegistered'
        cases isRegistered'
      taken := by
        intro other position isStoring
        rw [stores] at isStoring
        rw [slots.1]
        split at isStoring
        · rename_i same
          cases isStoring
          refine ⟨empty, ?_⟩
          intro second also
          rw [stores] at also
          split at also
          · rename_i here
            rw [here, same]
          · exact absurd also (unstored second)
        · obtain ⟨none, only⟩ := owned.taken other position isStoring
          refine ⟨none, ?_⟩
          intro second also
          rw [stores] at also
          split at also
          · cases also
            exact absurd isStoring (unstored other)
          · exact only second also
      released := by
        intro other position _ _ isRegistered'
        rw [slots.2.2.2] at isRegistered'
        cases isRegistered' }

/-- The task is stored in the slot that was taken. -/
theorem fills (owned : SlotsOwned system) {slot : SlotId} {task : TaskId}
    (calls : next.call = Function.update system.call id none)
    (found : system.call id = some call)
    (storing : call.polls = none ∧ call.stores = some slot)
    (filled : next.slot = Function.update system.slot slot (some task))
    (slots : next.nextSlot = system.nextSlot ∧
      next.nextCall = system.nextCall ∧
      next.pollingSlot = system.pollingSlot) : SlotsOwned next := by
  have isStoring : system.stores id = some slot := by
    simp [System.stores, found, storing.2]
  obtain ⟨empty, only⟩ := owned.taken id slot isStoring
  have polls : ∀ other, next.polls other = system.polls other := by
    intro other
    by_cases here : other = id
    · simp [here, System.polls, bind_update Call.polls calls, found,
        storing.1]
    · simp [System.polls, bind_update Call.polls calls, here]
  have stores : ∀ other, next.stores other =
      if other = id then none else system.stores other := by
    intro other
    simp [System.stores, bind_update Call.stores calls]
  have others : ∀ other position, system.polls other = some position →
      next.carries other = system.carries other ∧
        next.hasReleased other = system.hasReleased other := by
    intro other position polling
    have differ : other ≠ id := by
      rintro rfl
      simp [System.polls, found, storing.1] at polling
    simp [System.carries, System.hasReleased, bind_update Call.carries calls,
      any_update Call.hasReleased calls, differ]
  exact
    { fresh := by
        intro other above
        rw [slots.2.1] at above
        have differ : other ≠ id := by
          rintro rfl
          rw [owned.fresh other above] at found
          cases found
        rw [calls, Function.update_of_ne differ]
        exact owned.fresh other above
      bound := by
        intro other position polling
        rw [polls] at polling
        rw [slots.1]
        exact owned.bound other position polling
      unique := by
        intro first second position one two
        rw [polls] at one two
        exact owned.unique first second position one two
      owned := by
        intro position uses
        have used : system.Uses position := by
          by_cases same : position = slot
          · rw [same]
            exact Or.inr (Or.inl ⟨id, isStoring⟩)
          · rcases uses with isRegistered | ⟨other, stored⟩ | full
            · rw [slots.2.2] at isRegistered
              exact Or.inl isRegistered
            · rw [stores] at stored
              split at stored
              · cases stored
              · exact Or.inr (Or.inl ⟨other, stored⟩)
            · rw [filled, Function.update_of_ne same] at full
              exact Or.inr (Or.inr full)
        obtain ⟨owner, polling, none⟩ := owned.owned position used
        exact ⟨owner, by rw [polls, polling],
          by rw [(others owner position polling).1, none]⟩
      registered := by
        intro position isRegistered
        rw [slots.2.2] at isRegistered
        obtain ⟨none, unstored⟩ := owned.registered position isRegistered
        have differ : position ≠ slot := by
          rintro rfl
          exact unstored id isStoring
        rw [filled, Function.update_of_ne differ]
        refine ⟨none, ?_⟩
        intro other
        rw [stores]
        split
        · simp
        · exact unstored other
      taken := by
        intro other position stored
        rw [stores] at stored
        split at stored
        · cases stored
        · rename_i differ
          obtain ⟨none, onlyOther⟩ := owned.taken other position stored
          have apart : position ≠ slot := by
            rintro rfl
            exact differ (only other stored)
          rw [filled, Function.update_of_ne apart]
          refine ⟨none, ?_⟩
          intro second also
          rw [stores] at also
          split at also
          · cases also
          · exact onlyOther second also
      released := by
        intro other position hasReleased polling
        rw [polls] at polling
        rw [(others other position polling).2] at hasReleased
        rw [slots.2.2]
        exact owned.released other position hasReleased polling }

/-- A new slot is not in use. -/
theorem unused (owned : SlotsOwned system) :
    ¬ system.Uses system.nextSlot := by
  intro uses
  obtain ⟨owner, polling, -⟩ := owned.owned _ uses
  exact Nat.lt_irrefl _ (owned.bound owner _ polling)

/-- A waiting call gets a slot of its own, with a task in it or registered. -/
theorem joins (owned : SlotsOwned system) (new : Call)
    (calls : next.call = Function.update system.call id (some new))
    (found : system.call id = some call)
    (plain : call.polls = none ∧ call.stores = none)
    (polling : new.polls = some system.nextSlot ∧ new.stores = none ∧
      new.carries = none ∧ new.hasReleased = false)
    (bounds : next.nextSlot = system.nextSlot + 1 ∧
      next.nextCall = system.nextCall)
    (slots : (∃ task, next.slot =
          Function.update system.slot system.nextSlot (some task)) ∧
        next.pollingSlot = system.pollingSlot ∨
      next.slot = system.slot ∧ system.pollingSlot = none ∧
        next.pollingSlot = some system.nextSlot) : SlotsOwned next := by
  have unused := owned.unused
  have polls : ∀ other, next.polls other =
      if other = id then some system.nextSlot else system.polls other := by
    intro other
    simp [System.polls, bind_update Call.polls calls, polling.1]
  have stores : ∀ other, next.stores other = system.stores other := by
    intro other
    by_cases here : other = id
    · simp [here, System.stores, bind_update Call.stores calls, found,
        plain.2, polling.2.1]
    · simp [System.stores, bind_update Call.stores calls, here]
  have notPolling : ∀ other position, system.polls other = some position →
      other ≠ id ∧ position ≠ system.nextSlot := by
    intro other position polls'
    refine ⟨?_, ?_⟩
    · rintro rfl
      simp [System.polls, found, plain.1] at polls'
    · rintro rfl
      exact Nat.lt_irrefl _ (owned.bound other _ polls')
  have elsewhere : ∀ position, position ≠ system.nextSlot →
      next.slot position = system.slot position ∧
        (next.pollingSlot = some position →
          system.pollingSlot = some position) := by
    intro position differ
    rcases slots with ⟨⟨task, filled⟩, kept⟩ | ⟨kept, -, registered⟩
    · rw [filled, Function.update_of_ne differ, kept]
      exact ⟨rfl, fun same => same⟩
    · rw [kept, registered]
      refine ⟨rfl, ?_⟩
      intro same
      exact absurd (Option.some.inj same).symm differ
  exact
    { fresh := by
        intro other above
        rw [bounds.2] at above
        have differ : other ≠ id := by
          rintro rfl
          rw [owned.fresh other above] at found
          cases found
        rw [calls, Function.update_of_ne differ]
        exact owned.fresh other above
      bound := by
        intro other position polls'
        rw [polls] at polls'
        rw [bounds.1]
        split at polls'
        · cases polls'
          exact Nat.lt_succ_self _
        · exact Nat.lt_succ_of_lt (owned.bound other position polls')
      unique := by
        intro first second position one two
        rw [polls] at one two
        split at one
        · rename_i isFirst
          cases one
          split at two
          · rename_i isSecond
            rw [isFirst, isSecond]
          · exact absurd rfl (notPolling second _ two).2
        · split at two
          · cases two
            exact absurd rfl (notPolling first _ one).2
          · exact owned.unique first second position one two
      owned := by
        intro position uses
        by_cases isNew : position = system.nextSlot
        · refine ⟨id, by rw [polls, if_pos rfl, isNew], ?_⟩
          simp [System.carries, bind_update Call.carries calls,
            polling.2.2.1]
        · have used : system.Uses position := by
            rcases uses with isRegistered | isStoring | full
            · exact Or.inl ((elsewhere position isNew).2 isRegistered)
            · exact Or.inr (Or.inl (by simpa only [stores] using isStoring))
            · rw [(elsewhere position isNew).1] at full
              exact Or.inr (Or.inr full)
          obtain ⟨owner, polls', none⟩ := owned.owned position used
          have differ := (notPolling owner position polls').1
          refine ⟨owner, by rw [polls, if_neg differ, polls'], ?_⟩
          simpa [System.carries, bind_update Call.carries calls, differ]
            using none
      registered := by
        intro position isRegistered
        by_cases isNew : position = system.nextSlot
        · subst isNew
          have empty : system.slot system.nextSlot = none := by
            by_contra full
            exact unused (Or.inr (Or.inr full))
          refine ⟨?_, ?_⟩
          · rcases slots with ⟨-, kept⟩ | ⟨kept, -⟩
            · rw [kept] at isRegistered
              exact absurd (Or.inl isRegistered) unused
            · rw [kept, empty]
          · intro other isStoring
            rw [stores] at isStoring
            exact unused (Or.inr (Or.inl ⟨other, isStoring⟩))
        · obtain ⟨same, kept⟩ := elsewhere position isNew
          rw [same]
          simpa only [stores] using
            owned.registered position (kept isRegistered)
      taken := by
        intro other position isStoring
        rw [stores] at isStoring
        have isOld : position ≠ system.nextSlot := by
          rintro rfl
          exact unused (Or.inr (Or.inl ⟨other, isStoring⟩))
        rw [(elsewhere position isOld).1]
        simpa only [stores] using owned.taken other position isStoring
      released := by
        intro other position hasReleased polls' isRegistered
        by_cases here : other = id
        · subst here
          simp [System.hasReleased, any_update Call.hasReleased calls,
            polling.2.2.2] at hasReleased
        · rw [polls, if_neg here] at polls'
          have earlier : system.hasReleased other = true := by
            simpa [System.hasReleased, any_update Call.hasReleased calls,
              here] using hasReleased
          have isOld := (notPolling other position polls').2
          exact owned.released other position earlier polls'
            ((elsewhere position isOld).2 isRegistered) }

/-- The owner of a slot takes what is in it. -/
theorem empties (owned : SlotsOwned system) (new : Call) {slot : SlotId}
    (calls : next.call = Function.update system.call id (some new))
    (found : system.call id = some call)
    (polling : call.polls = some slot ∧ call.stores = none)
    (same : new.polls = some slot ∧ new.stores = none ∧
      new.carries = system.slot slot ∧ new.hasReleased = false)
    (emptied : next.slot = Function.update system.slot slot none)
    (slots : next.nextSlot = system.nextSlot ∧
      next.nextCall = system.nextCall ∧
      next.pollingSlot = system.pollingSlot) : SlotsOwned next := by
  have polls : ∀ other, next.polls other = system.polls other := by
    intro other
    by_cases here : other = id
    · simp [here, System.polls, bind_update Call.polls calls, found,
        polling.1, same.1]
    · simp [System.polls, bind_update Call.polls calls, here]
  have stores : ∀ other, next.stores other = system.stores other := by
    intro other
    by_cases here : other = id
    · simp [here, System.stores, bind_update Call.stores calls, found,
        polling.2, same.2.1]
    · simp [System.stores, bind_update Call.stores calls, here]
  have isOwner : system.polls id = some slot := by
    simp [System.polls, found, polling.1]
  exact
    { fresh := by
        intro other above
        rw [slots.2.1] at above
        have differ : other ≠ id := by
          rintro rfl
          rw [owned.fresh other above] at found
          cases found
        rw [calls, Function.update_of_ne differ]
        exact owned.fresh other above
      bound := by
        intro other position polls'
        rw [polls] at polls'
        rw [slots.1]
        exact owned.bound other position polls'
      unique := by
        intro first second position one two
        rw [polls] at one two
        exact owned.unique first second position one two
      owned := by
        intro position uses
        by_cases here : position = slot
        · subst here
          -- The slot stays in use only if it was empty.
          have empty : system.slot position = none := by
            rcases uses with isRegistered | ⟨other, isStoring⟩ | full
            · rw [slots.2.2] at isRegistered
              exact (owned.registered position isRegistered).1
            · rw [stores] at isStoring
              exact (owned.taken other position isStoring).1
            · simp [emptied] at full
          refine ⟨id, by rw [polls, isOwner], ?_⟩
          simp [System.carries, bind_update Call.carries calls, same.2.2.1,
            empty]
        · have used : system.Uses position := by
            rcases uses with isRegistered | isStoring | full
            · rw [slots.2.2] at isRegistered
              exact Or.inl isRegistered
            · exact Or.inr (Or.inl (by simpa only [stores] using isStoring))
            · rw [emptied, Function.update_of_ne here] at full
              exact Or.inr (Or.inr full)
          obtain ⟨owner, polls', none⟩ := owned.owned position used
          have differ : owner ≠ id := by
            rintro rfl
            rw [isOwner] at polls'
            exact here (Option.some.inj polls').symm
          refine ⟨owner, by rw [polls, polls'], ?_⟩
          simpa [System.carries, bind_update Call.carries calls, differ]
            using none
      registered := by
        intro position isRegistered
        rw [slots.2.2] at isRegistered
        obtain ⟨none, unstored⟩ := owned.registered position isRegistered
        refine ⟨?_, by simpa only [stores] using unstored⟩
        rw [emptied]
        by_cases here : position = slot
        · simp [here]
        · rw [Function.update_of_ne here, none]
      taken := by
        intro other position isStoring
        rw [stores] at isStoring
        obtain ⟨none, only⟩ := owned.taken other position isStoring
        refine ⟨?_, by simpa only [stores] using only⟩
        rw [emptied]
        by_cases here : position = slot
        · simp [here]
        · rw [Function.update_of_ne here, none]
      released := by
        intro other position hasReleased polls'
        by_cases here : other = id
        · subst here
          simp [System.hasReleased, any_update Call.hasReleased calls,
            same.2.2.2] at hasReleased
        · rw [polls] at polls'
          have earlier : system.hasReleased other = true := by
            simpa [System.hasReleased, any_update Call.hasReleased calls,
              here] using hasReleased
          rw [slots.2.2]
          exact owned.released other position earlier polls' }

/-- The owner of a slot leaves; nobody uses the slot any more. -/
theorem leaves (owned : SlotsOwned system) {slot : SlotId}
    (calls : next.call = Function.update system.call id none)
    (found : system.call id = some call)
    (polling : call.polls = some slot ∧ call.stores = none)
    (emptied : next.slot = Function.update system.slot slot none)
    (slots : next.nextSlot = system.nextSlot ∧
      next.nextCall = system.nextCall ∧
      next.pollingSlot = system.pollingSlot)
    (unused : system.pollingSlot ≠ some slot ∧
      ∀ other, system.stores other ≠ some slot) : SlotsOwned next := by
  have polls : ∀ other, next.polls other =
      if other = id then none else system.polls other := by
    intro other
    simp [System.polls, bind_update Call.polls calls]
  have stores : ∀ other, next.stores other = system.stores other := by
    intro other
    by_cases here : other = id
    · simp [here, System.stores, bind_update Call.stores calls, found,
        polling.2]
    · simp [System.stores, bind_update Call.stores calls, here]
  have isOwner : system.polls id = some slot := by
    simp [System.polls, found, polling.1]
  exact
    { fresh := by
        intro other above
        rw [slots.2.1] at above
        rw [calls]
        by_cases here : other = id
        · simp [here]
        · rw [Function.update_of_ne here]
          exact owned.fresh other above
      bound := by
        intro other position polls'
        rw [polls] at polls'
        rw [slots.1]
        split at polls'
        · cases polls'
        · exact owned.bound other position polls'
      unique := by
        intro first second position one two
        rw [polls] at one two
        split at one
        · cases one
        · split at two
          · cases two
          · exact owned.unique first second position one two
      owned := by
        intro position uses
        have apart : position ≠ slot := by
          rintro rfl
          rcases uses with isRegistered | ⟨other, isStoring⟩ | full
          · rw [slots.2.2] at isRegistered
            exact unused.1 isRegistered
          · rw [stores] at isStoring
            exact unused.2 other isStoring
          · simp [emptied] at full
        have used : system.Uses position := by
          rcases uses with isRegistered | isStoring | full
          · rw [slots.2.2] at isRegistered
            exact Or.inl isRegistered
          · exact Or.inr (Or.inl (by simpa only [stores] using isStoring))
          · rw [emptied, Function.update_of_ne apart] at full
            exact Or.inr (Or.inr full)
        obtain ⟨owner, polls', none⟩ := owned.owned position used
        have differ : owner ≠ id := by
          rintro rfl
          rw [isOwner] at polls'
          exact apart (Option.some.inj polls').symm
        refine ⟨owner, by rw [polls, if_neg differ, polls'], ?_⟩
        simpa [System.carries, bind_update Call.carries calls, differ]
          using none
      registered := by
        intro position isRegistered
        rw [slots.2.2] at isRegistered
        obtain ⟨none, unstored⟩ := owned.registered position isRegistered
        have apart : position ≠ slot := by
          rintro rfl
          exact unused.1 isRegistered
        refine ⟨?_, by simpa only [stores] using unstored⟩
        rw [emptied, Function.update_of_ne apart, none]
      taken := by
        intro other position isStoring
        rw [stores] at isStoring
        obtain ⟨none, only⟩ := owned.taken other position isStoring
        have apart : position ≠ slot := by
          rintro rfl
          exact unused.2 other isStoring
        refine ⟨?_, by simpa only [stores] using only⟩
        rw [emptied, Function.update_of_ne apart, none]
      released := by
        intro other position hasReleased polls'
        rw [polls] at polls'
        split at polls'
        · cases polls'
        · rename_i here
          have earlier : system.hasReleased other = true := by
            simpa [System.hasReleased, any_update Call.hasReleased calls,
              here] using hasReleased
          rw [slots.2.2]
          exact owned.released other position earlier polls' }

end SlotsOwned

/-! ## The places of the tasks -/

abbrev Place := Location Holder

/-- A task is in the scheduler exactly when it has been added once more than it
has been returned. -/
def Counted (system : System) (place : TaskId → Place) : Prop :=
  ∀ task,
    system.adds task =
      system.returns task + if place task = .outside then 0 else 1

def Located (system : System) : Prop :=
  ∃ place, Placed (queuedTasks system.classes) system.content place ∧
    Counted system place

/-- Nothing has been moved. -/
theorem Located.keeps {system next : System} (located : Located system)
    (queue : queuedTasks next.classes = queuedTasks system.classes)
    (content : next.content = system.content)
    (adds : next.adds = system.adds)
    (returns : next.returns = system.returns) : Located next := by
  obtain ⟨place, placed, counted⟩ := located
  refine ⟨place, ?_, ?_⟩
  · rw [queue, content]
    exact placed
  · intro task
    rw [adds, returns]
    exact counted task

/-- A call goes on with what it carries. -/
theorem content_goesOn {system : System} {id : CallId} {call : Call}
    (new : Call) (found : system.call id = some call)
    (carried : new.carries = call.carries) :
    (system.goesOn id new).content = system.content := by
  show contentOf _ _ (Function.update system.call id (some new)) = _
  rw [contentOf_call]
  refine Function.update_eq_self_iff.mpr ?_
  simp [contentOf, found, carried]

/-- Two placements that differ in where the tasks inside are. -/
theorem Counted.moved {system next : System} {place later : TaskId → Place}
    (counted : Counted system place) (adds : next.adds = system.adds)
    (returns : next.returns = system.returns)
    (inside : ∀ task, later task = .outside ↔ place task = .outside) :
    Counted next later := by
  intro task
  rw [adds, returns, counted task]
  simp only [inside]

/-- A task inside leaves. -/
theorem Counted.returned {system next : System} {place later : TaskId → Place}
    (counted : Counted system place) {task : TaskId}
    (adds : next.adds = system.adds)
    (returns : next.returns =
      Function.update system.returns task (system.returns task + 1))
    (was : place task ≠ .outside) (left : later task = .outside)
    (others : ∀ other, other ≠ task →
      (later other = .outside ↔ place other = .outside)) :
    Counted next later := by
  intro other
  have before := counted other
  rw [adds, returns]
  by_cases same : other = task
  · subst same
    rw [if_neg was] at before
    simp [left, before]
  · rw [Function.update_of_ne same, before]
    simp only [others other same]

/-- What a choice leaves in place; the chosen task is nowhere. -/
theorem placed_of_chooses {system next : System} {cpu : CPU}
    {task : Option TaskId} (chooses : Chooses system cpu next task)
    {place : TaskId → Place}
    (placed : Placed (queuedTasks system.classes) system.content place) :
    ∃ later, Placed (queuedTasks next.classes) next.content later ∧
      (task = none → later = place) ∧
      ∀ chosen, task = some chosen →
        place chosen ≠ .outside ∧ later chosen = .outside ∧
          ∀ other, other ≠ chosen →
            (later other = .outside ↔ place other = .outside) := by
  cases chooses with
  | nothing noClass noSuccessor =>
      exact ⟨place, placed, fun _ => rfl, fun chosen none => by cases none⟩
  | @successor successor found =>
      have full : system.content (.successor cpu) = some successor := found
      refine ⟨Function.update place successor .outside, ?_,
        fun none => (by cases none), ?_⟩
      · show Placed _ (contentOf _ _ _) _
        rw [contentOf_successor]
        exact placed.takeFromCell full
      · rintro chosen ⟨⟩
        have here := (placed.contained successor _).mp full
        refine ⟨by rw [here]; simp, by simp, ?_⟩
        intro other differ
        rw [Function.update_of_ne differ]
  | @queued front popped noSuccessor split =>
      refine ⟨Function.update place front .outside,
        placed.takeFromQueue split, fun none => (by cases none), ?_⟩
      rintro chosen ⟨⟩
      have here : place front = .queue :=
        (placed.queued front).mp
          (split.mem_iff.mpr (List.mem_cons_self ..))
      refine ⟨by rw [here]; simp, by simp, ?_⟩
      intro other differ
      rw [Function.update_of_ne differ]
  | @exchanged front successor popped found split =>
      have full : system.content (.successor cpu) = some successor := found
      have waits := (placed.contained successor _).mp full
      have here : place front = .queue :=
        (placed.queued front).mp
          (split.mem_iff.mpr (List.mem_cons_self ..))
      have differ : successor ≠ front := by
        rintro rfl
        rw [here] at waits
        cases waits
      have taken :=
        (placed.takeFromCell full).takeFromQueue split
      have put := taken.putInQueue
        (by simp [differ] :
          Function.update (Function.update place successor .outside) front
            Location.outside successor = .outside)
        (queuedTasks_push (negated (system.priority successor)) false
          successor popped)
      refine ⟨Function.update
        (Function.update (Function.update place successor .outside) front
          .outside) successor .queue, ?_, fun none => (by cases none), ?_⟩
      · show Placed _ (contentOf _ _ _) _
        rw [contentOf_successor]
        exact put
      · rintro chosen ⟨⟩
        refine ⟨by rw [here]; simp, by simp [Ne.symm differ], ?_⟩
        intro other apart
        by_cases same : other = successor
        · subst same
          simp [waits]
        · simp [same, apart]

/-- A choice changes the classes and the immediate successor slot only. -/
theorem frame_of_chooses {system next : System} {cpu : CPU}
    {task : Option TaskId} (chooses : Chooses system cpu next task) :
    next.call = system.call ∧ next.nextCall = system.nextCall ∧
      next.slot = system.slot ∧ next.nextSlot = system.nextSlot ∧
      next.pollingSlot = system.pollingSlot ∧ next.adds = system.adds ∧
      next.returns = system.returns := by
  cases chooses <;> exact ⟨rfl, rfl, rfl, rfl, rfl, rfl, rfl⟩

structure Inv (system : System) : Prop where
  owned : SlotsOwned system
  located : Located system

/-- A waiting call must not leave while its slot can still give it a task: when
the CPU accepts work again although the call has found nothing, or when the CPU
does not accept work and the call has found a task already or another call is
going to store one. -/
def permits (system : System) : Action → Bool
  | .perform id =>
      match system.call id with
      | some (.checkAcceptsWork cpu slot none) =>
          !system.acceptsWork cpu ||
            (system.pollingSlot != some slot && (system.slot slot).isNone &&
              !system.isStoring slot)
      | some (.lastGetTask _ slot task) =>
          task.isNone && !system.isStoring slot
      | _ => true
  | _ => true

def Permitted (system : System) (action : Action) : Prop :=
  permits system action = true

instance (system : System) (action : Action) :
    Decidable (Permitted system action) :=
  inferInstanceAs (Decidable (permits system action = true))

namespace Inv

variable {system next : System} {id : CallId}

theorem stores_of_isStoring (inv : Inv system) {slot : SlotId}
    (none : system.isStoring slot = false) (other : CallId) :
    system.stores other ≠ some slot := by
  intro storing
  by_cases below : other < system.nextCall
  · have all := List.any_eq_false.mp none other (List.mem_range.mpr below)
    simp [storing] at all
  · have gone := inv.owned.fresh other (Nat.not_lt.mp below)
    simp [System.stores, gone] at storing

/-- A call that owns no slot goes on with the same task in its hands, or without
one. -/
theorem goesOn (inv : Inv system) {call : Call} (new : Call)
    (found : system.call id = some call)
    (plain : call.polls = none ∧ call.stores = none)
    (stays : new.polls = none ∧ new.stores = none)
    (carried : new.carries = call.carries)
    (calls : next.call = Function.update system.call id (some new))
    (others : next.slot = system.slot ∧ next.nextSlot = system.nextSlot ∧
      next.pollingSlot = system.pollingSlot ∧
      next.nextCall = system.nextCall ∧
      next.schedulerData = system.schedulerData)
    (queue : queuedTasks next.classes = queuedTasks system.classes)
    (history : next.adds = system.adds ∧ next.returns = system.returns) :
    Inv next := by
  have below : id < system.nextCall := by
    by_contra above
    rw [inv.owned.fresh id (Nat.not_lt.mp above)] at found
    cases found
  refine ⟨?_, ?_⟩
  · refine inv.owned.plain calls ?_ stays ?_
      ⟨others.1, others.2.1, others.2.2.1⟩
    · simp [System.polls, System.stores, found, plain.1, plain.2]
    · rw [others.2.2.2.1]
      exact ⟨Nat.le_refl _, below⟩
  · refine inv.located.keeps queue ?_ history.1 history.2
    have same := content_goesOn new found carried
    unfold System.content at same ⊢
    rw [calls, others.1, others.2.2.2.2]
    exact same

/-- The owner of a slot goes on with what it has. -/
theorem moves (inv : Inv system) {call : Call} (new : Call) {slot : SlotId}
    (found : system.call id = some call)
    (polling : call.polls = some slot) (same : new.polls = some slot)
    (carried : new.carries = call.carries)
    (calls : next.call = Function.update system.call id (some new))
    (released : new.hasReleased = true → next.pollingSlot ≠ some slot)
    (others : next.slot = system.slot ∧ next.nextSlot = system.nextSlot ∧
      next.nextCall = system.nextCall ∧
      next.schedulerData = system.schedulerData ∧
      next.classes = system.classes)
    (registration : next.pollingSlot = system.pollingSlot ∨
      system.pollingSlot = some slot ∧ next.pollingSlot = none)
    (history : next.adds = system.adds ∧ next.returns = system.returns) :
    Inv next := by
  refine ⟨?_, ?_⟩
  · exact inv.owned.moves calls found polling same carried released
      ⟨others.1, others.2.1, others.2.2.1⟩ registration
  · refine inv.located.keeps (by rw [others.2.2.2.2]) ?_ history.1 history.2
    have kept := content_goesOn new found carried
    unfold System.content at kept ⊢
    rw [calls, others.1, others.2.2.2.1]
    exact kept

/-- A call that owns no slot puts the task in its hands somewhere else. -/
theorem hands (inv : Inv system) {call : Call} {new : Option Call}
    {task : TaskId} (found : system.call id = some call)
    (plain : call.polls = none ∧ call.stores = none)
    (stays : new.bind Call.polls = none ∧ new.bind Call.stores = none)
    (calls : next.call = Function.update system.call id new)
    (carried : call.carries = some task)
    (others : next.slot = system.slot ∧ next.nextSlot = system.nextSlot ∧
      next.pollingSlot = system.pollingSlot ∧
      next.nextCall = system.nextCall)
    (history : next.adds = system.adds ∧ next.returns = system.returns)
    (put : ∀ place : TaskId → Place,
      Placed (queuedTasks system.classes)
        (Function.update system.content (.call id) none) place →
      place task = .outside →
      ∃ location, location ≠ Location.outside ∧
        Placed (queuedTasks next.classes) next.content
          (Function.update place task location)) : Inv next := by
  have below : id < system.nextCall := by
    by_contra above
    rw [inv.owned.fresh id (Nat.not_lt.mp above)] at found
    cases found
  refine ⟨?_, ?_⟩
  · refine inv.owned.plain calls ?_ stays ?_
      ⟨others.1, others.2.1, others.2.2.1⟩
    · simp [System.polls, System.stores, found, plain.1, plain.2]
    · rw [others.2.2.2]
      exact ⟨Nat.le_refl _, below⟩
  · obtain ⟨place, placed, counted⟩ := inv.located
    have full : system.content (.call id) = some task := by
      simp [System.content, contentOf, found, carried]
    have here := (placed.contained task _).mp full
    obtain ⟨location, inside, moved⟩ :=
      put _ (placed.takeFromCell full) (by simp)
    refine ⟨_, moved, counted.moved history.1 history.2 ?_⟩
    intro other
    by_cases same : other = task
    · subst same
      simp [here, inside]
    · simp [same]

end Inv

end Nanos6.Scheduling
