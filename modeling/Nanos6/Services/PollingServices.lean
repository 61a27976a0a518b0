import Mathlib.Data.Prod.Lex
import Nanos6.Foundation.LabelledRun
import Nanos6.Foundation.OrderedMap
import Nanos6.Foundation.Ownership

/-!
# Polling services

The registered services are kept in a map that a lock protects.  `handleServices`
traverses the map with the lock, but releases it while it executes a service; the
flag `_processing` keeps others from executing or removing that service
meanwhile.  `nanos6_unregister_polling_service` leaves the address of a flag in
the entry, and whoever removes the entry sets the flag.

The parties are the calls of `handleServices` and of
`nanos6_unregister_polling_service`.  A call made by a service, or by an
unregistration that waits, is a party of its own, so what is said of two calls
also holds of two threads.  The names of the services do not take part in the
order of the map and are left out.
-/

namespace Nanos6.PollingServices

open Foundation

abbrev CallId := Nat

/-- The function and its data, in the order of the map. -/
abbrev ServiceKey := Nat ×ₗ Nat

structure ServiceData where
  processing : Bool := false
  /-- The unregistration whose flag has to be set. -/
  discard : Option CallId := none
  deriving DecidableEq, Repr

/-- Where a call is. -/
inductive Point where
  | outside
  /-- In `handleServices` with the lock, at the head of the loop. -/
  | traversing (iterator : Option ServiceKey)
  /-- In the function of the service, without the lock. -/
  | executing (key : ServiceKey)
  /-- After the function, before the lock is taken again. -/
  | returned (key : ServiceKey) (unregister : Bool)
  /-- With the lock, after `_processing` has been unset. -/
  | processed (key : ServiceKey) (unregister : Bool)
  /-- With the lock, at the removal of a service. -/
  | signaling (key : ServiceKey)
  /-- With the lock, before `erase`. -/
  | erasing (key : ServiceKey)
  /-- In `nanos6_unregister_polling_service`, waiting for its flag; with the
  number of registrations of the service when it was called. -/
  | waiting (key : ServiceKey) (registrations : Nat)
  deriving DecidableEq

namespace Point

def hasLock : Point → Bool
  | .traversing _ | .processed _ _ | .signaling _ | .erasing _ => true
  | _ => false

/-- The call executes the service, or has done so and not unset `_processing`
yet. -/
def executes (key : ServiceKey) : Point → Bool
  | .executing other => decide (other = key)
  | .returned other _ => decide (other = key)
  | _ => false

/-- The entry to which the iterator of the traversal refers. -/
def iterator : Point → Option ServiceKey
  | .traversing iterator => iterator
  | .executing key | .returned key _ | .processed key _ | .signaling key
  | .erasing key => some key
  | _ => none

/-- The entry that the call handles after its execution or at its removal. -/
def handles : Point → Option ServiceKey
  | .processed key _ | .signaling key | .erasing key => some key
  | _ => none

def isWaiting : Point → Bool
  | .waiting _ _ => true
  | _ => false

end Point

structure State where
  services : OrderedMap ServiceKey ServiceData := .empty
  lock : Option CallId := none
  point : CallId → Point := fun _ => .outside
  /-- The flag of each unregistration. -/
  unregistered : CallId → Bool := fun _ => false
  /-- How often a service has been registered. -/
  registrations : ServiceKey → Nat := fun _ => 0
  /-- The unregistrations that have returned, each with the number of
  registrations of the service when it was called. -/
  returnedCalls : List (ServiceKey × Nat) := []

namespace State

def setPoint (state : State) (call : CallId) (point : Point) : State :=
  { state with point := Function.update state.point call point }

/-- The call goes on with the lock, or without it. -/
def goesOn (state : State) (call : CallId) (lock : Option CallId)
    (point : Point) : State :=
  { state.setPoint call point with lock := lock }

def modifyService (state : State) (key : ServiceKey)
    (change : ServiceData → ServiceData) : State :=
  { state with services := state.services.modify key change }

/-- A service that is there must have been marked for removal. -/
def register (state : State) (key : ServiceKey) : Option State :=
  let counted :=
    { state with
      registrations :=
        Function.update state.registrations key
          (state.registrations key + 1) }
  match state.lock, state.services.lookup key with
  | none, none =>
      some { counted with services := state.services.insert key {} }
  | none, some data =>
      if data.discard.isSome then
        some (counted.modifyService key fun data =>
          { data with discard := none })
      else none
  | some _, _ => none

/-- The unregistration leaves the address of its flag in the entry, and waits. -/
def mark (state : State) (call : CallId) (key : ServiceKey) : State :=
  { state with
    services := state.services.modify key fun data =>
      { data with discard := some call }
    point := Function.update state.point call
      (.waiting key (state.registrations key))
    unregistered := Function.update state.unregistered call false }

/-- The service must be there, and not be marked for removal. -/
def unregister (state : State) (call : CallId) (key : ServiceKey) :
    Option State :=
  match state.lock, state.services.lookup key, state.point call with
  | none, some data, .outside =>
      if data.discard.isNone then some (state.mark call key) else none
  | _, _, _ => none

/-- `tryLock` at the start of `handleServices`; the call returns if it
fails. -/
def handleServices (state : State) (call : CallId) : Option State :=
  match state.point call, state.lock with
  | .outside, none =>
      some (state.goesOn call (some call)
        (.traversing state.services.first))
  | .outside, some _ => some state
  | _, _ => none

/-- One entry of the traversal. -/
def visit (state : State) (call : CallId) (key : ServiceKey)
    (data : ServiceData) : State :=
  if data.processing then
    state.setPoint call (.traversing (state.services.next key))
  else if data.discard.isSome then
    state.setPoint call (.signaling key)
  else
    (state.modifyService key fun data =>
      { data with processing := true }).goesOn call none (.executing key)

/-- The lock has been taken again after the execution. -/
def relock (state : State) (call : CallId) (key : ServiceKey)
    (unregister : Bool) : State :=
  (state.modifyService key fun data =>
    { data with processing := false }).goesOn call (some call)
      (.processed key unregister)

def signal (state : State) (call : CallId) (key : ServiceKey)
    (data : ServiceData) : State :=
  { state.setPoint call (.erasing key) with
    unregistered :=
      match data.discard with
      | some request => Function.update state.unregistered request true
      | none => state.unregistered }

def eraseService (state : State) (call : CallId) (key : ServiceKey) :
    State :=
  { state.setPoint call (.traversing (state.services.next key)) with
    services := state.services.erase key }

/-- The unregistration returns. -/
def returns (state : State) (call : CallId) (key : ServiceKey)
    (registrations : Nat) : State :=
  { state.setPoint call .outside with
    returnedCalls := (key, registrations) :: state.returnedCalls }

end State

inductive Action where
  | register (key : ServiceKey)
  | unregister (call : CallId) (key : ServiceKey)
  | handleServices (call : CallId)
  /-- The function of the service returns. -/
  | finish (call : CallId) (unregister : Bool)
  /-- The next step of a call. -/
  | advance (call : CallId)
  deriving DecidableEq

/-- The next step of a call.  A traversal whose iterator refers to no entry
cannot go on. -/
def advance (state : State) (call : CallId) : Option State :=
  match state.point call with
  | .outside => none
  | .traversing none => some (state.goesOn call none .outside)
  | .traversing (some key) =>
      (state.services.lookup key).map (state.visit call key)
  | .executing _ => none
  | .returned key unregister =>
      if state.lock.isNone then some (state.relock call key unregister)
      else none
  | .processed key unregister =>
      (state.services.lookup key).map fun data =>
        state.setPoint call
          (if unregister || data.discard.isSome then .signaling key
          else .traversing (state.services.next key))
  | .signaling key =>
      (state.services.lookup key).map (state.signal call key)
  | .erasing key => some (state.eraseService call key)
  | .waiting key registrations =>
      if state.unregistered call then
        some (state.returns call key registrations)
      else none

def step (state : State) : Action → Option State
  | .register key => state.register key
  | .unregister call key => state.unregister call key
  | .handleServices call => state.handleServices call
  | .finish call unregister =>
      match state.point call with
      | .executing key => some (state.setPoint call (.returned key unregister))
      | _ => none
  | .advance call => advance state call

/-! ## Traversals -/

theorem Point.hasLock_or_executes {point : Point} {key : ServiceKey}
    (refers : point.iterator = some key) :
    point.hasLock = true ∨ point.executes key = true := by
  cases point <;> simp_all [Point.iterator, Point.hasLock, Point.executes]

theorem Point.hasLock_of_handles {point : Point} {key : ServiceKey}
    (handled : point.handles = some key) : point.hasLock = true := by
  cases point <;> simp_all [Point.handles, Point.hasLock]

/-- A call that is found where the last one did not move to has been there. -/
theorem Point.of_update {point : CallId → Point} {call other : CallId}
    {after read : Point}
    (reads : Function.update point call after other = read)
    (moved : after ≠ read) : other ≠ call ∧ point other = read := by
  by_cases same : other = call
  · subst same
    rw [Function.update_self] at reads
    exact absurd reads moved
  · rw [Function.update_of_ne same] at reads
    exact ⟨same, reads⟩

theorem Point.update_iff {point : CallId → Point} {call : CallId}
    {after read : Point} (before : point call ≠ read) (moved : after ≠ read)
    (other : CallId) :
    Function.update point call after other = read ↔ point other = read := by
  constructor
  · exact fun reads => (of_update reads moved).2
  · intro reads
    have differ : other ≠ call := by
      rintro rfl
      exact before reads
    rw [Function.update_of_ne differ]
    exact reads

abbrev Services := OrderedMap ServiceKey ServiceData

/-- The iterator of the call refers to an entry, or to the end. -/
def Point.IsValid (services : Services) (point : Point) : Prop :=
  ∀ key, point.iterator = some key → (services.lookup key).isSome = true

/-- Nobody executes the service that the call handles. -/
def Point.HandlesIdle (executor : ServiceKey → Option CallId)
    (point : Point) : Prop :=
  ∀ key, point.handles = some key → executor key = none

/-- What the traversals keep: at most one call executes a service, and its entry
is the one with the flag `_processing`. -/
structure Traversals (services : Services) (lock : Option CallId)
    (point : CallId → Point) (executor : ServiceKey → Option CallId) :
    Prop where
  locked : OwnedBy Point.hasLock point lock
  executes : ∀ key, OwnedBy (Point.executes key) point (executor key)
  processing : ∀ key,
    (executor key).isSome = (services.lookup key).any ServiceData.processing
  valid : ∀ call, (point call).IsValid services
  handled : ∀ call, (point call).HandlesIdle executor

namespace Traversals

variable {services : Services} {lock : Option CallId}
  {point : CallId → Point} {executor : ServiceKey → Option CallId}
  {call : CallId}

/-- A call moves on without starting or ending an execution, and no entry is
removed. -/
theorem move (traversals : Traversals services lock point executor)
    {lockAfter : Option CallId} {servicesAfter : Services} (after : Point)
    (locked : OwnedBy Point.hasLock (Function.update point call after)
      lockAfter)
    (executes : ∀ key, after.executes key = (point call).executes key)
    (kept : ∀ key, (services.lookup key).isSome = true →
      (servicesAfter.lookup key).isSome = true)
    (processing : ∀ key,
      (servicesAfter.lookup key).any ServiceData.processing =
        (services.lookup key).any ServiceData.processing)
    (valid : after.IsValid servicesAfter)
    (handled : after.HandlesIdle executor) :
    Traversals servicesAfter lockAfter (Function.update point call after)
      executor where
  locked := locked
  executes := fun key => (traversals.executes key).keep (executes key)
  processing := fun key => by rw [processing, traversals.processing]
  valid := by
    rw [Function.forall_update_iff point fun _ => Point.IsValid _]
    refine ⟨valid, fun other _ key refers => ?_⟩
    exact kept key (traversals.valid other key refers)
  handled := by
    rw [Function.forall_update_iff point fun _ => Point.HandlesIdle _]
    exact ⟨handled, fun other _ => traversals.handled other⟩

/-- The entries are changed without a move of a call. -/
theorem change (traversals : Traversals services lock point executor)
    {servicesAfter : Services}
    (kept : ∀ key, (services.lookup key).isSome = true →
      (servicesAfter.lookup key).isSome = true)
    (processing : ∀ key,
      (servicesAfter.lookup key).any ServiceData.processing =
        (services.lookup key).any ServiceData.processing) :
    Traversals servicesAfter lock point executor :=
  { traversals with
    processing := fun key => by rw [processing, traversals.processing]
    valid := fun other key refers =>
      kept key (traversals.valid other key refers) }

/-- The call with the lock starts the execution of a service. -/
theorem execute (traversals : Traversals services lock point executor)
    {key : ServiceKey} {data : ServiceData}
    (here : point call = .traversing (some key))
    (found : services.lookup key = some data)
    (idle : data.processing = false) :
    Traversals
      (services.modify key fun data => { data with processing := true })
      none (Function.update point call (.executing key))
      (Function.update executor key (some call)) := by
  have unexecuted : executor key = none := by
    have flag := traversals.processing key
    rw [found, Option.any_some, idle, Option.isSome_eq_false_iff,
      Option.isNone_iff_eq_none] at flag
    exact flag
  have alone : ∀ other, other ≠ call → (point other).hasLock = false := by
    intro other differ
    rw [Bool.eq_false_iff]
    intro hasLock
    exact differ (traversals.locked.unique hasLock (by rw [here]; rfl))
  refine
    { locked := traversals.locked.drop (by rw [here]; rfl) rfl
      executes := ?_
      processing := ?_
      valid := ?_
      handled := ?_ }
  · intro other
    by_cases same : other = key
    · subst same
      rw [Function.update_self]
      apply OwnedBy.take _ (by simp [Point.executes])
      rw [← unexecuted]
      exact traversals.executes other
    · rw [Function.update_of_ne same]
      exact (traversals.executes other).keep
        (by rw [here]; simp [Point.executes, Ne.symm same])
  · intro other
    rw [OrderedMap.lookup_modify]
    by_cases same : other = key
    · subst same
      simp [found]
    · rw [if_neg same, Function.update_of_ne same]
      exact traversals.processing other
  · rw [Function.forall_update_iff point fun _ => Point.IsValid _]
    constructor
    · rintro other ⟨⟩
      simp [OrderedMap.lookup_modify, found]
    · intro other _ otherKey refers
      have there := traversals.valid other otherKey refers
      rw [OrderedMap.lookup_modify]
      split
      · simp [found]
      · exact there
  · rw [Function.forall_update_iff point fun _ => Point.HandlesIdle _]
    constructor
    · rintro other ⟨⟩
    · intro other differ otherKey handles
      have hasLock := Point.hasLock_of_handles handles
      rw [alone other differ] at hasLock
      cases hasLock

/-- The lock is taken again after the execution of a service. -/
theorem relock (traversals : Traversals services none point executor)
    {key : ServiceKey} {unregister : Bool}
    (here : point call = .returned key unregister) :
    Traversals
      (services.modify key fun data => { data with processing := false })
      (some call) (Function.update point call (.processed key unregister))
      (Function.update executor key none) := by
  have there := traversals.valid call key (by rw [here]; rfl)
  obtain ⟨data, found⟩ := Option.isSome_iff_exists.mp there
  refine
    { locked := traversals.locked.take rfl
      executes := ?_
      processing := ?_
      valid := ?_
      handled := ?_ }
  · intro other
    by_cases same : other = key
    · subst same
      rw [Function.update_self]
      exact (traversals.executes other).drop
        (by rw [here]; simp [Point.executes]) rfl
    · rw [Function.update_of_ne same]
      exact (traversals.executes other).keep
        (by rw [here]; simp [Point.executes, Ne.symm same])
  · intro other
    rw [OrderedMap.lookup_modify]
    by_cases same : other = key
    · subst same
      simp [found]
    · rw [if_neg same, Function.update_of_ne same]
      exact traversals.processing other
  · rw [Function.forall_update_iff point fun _ => Point.IsValid _]
    constructor
    · rintro other ⟨⟩
      simp [OrderedMap.lookup_modify, found]
    · intro other _ otherKey refers
      have otherThere := traversals.valid other otherKey refers
      rw [OrderedMap.lookup_modify]
      split
      · simp [found]
      · exact otherThere
  · rw [Function.forall_update_iff point fun _ => Point.HandlesIdle _]
    constructor
    · rintro other ⟨⟩
      exact Function.update_self ..
    · intro other _ otherKey handles
      have owner := traversals.locked.owner_eq
        (Point.hasLock_of_handles handles)
      cases owner

/-- No other call refers to an entry that is handled. -/
theorem unreferenced (traversals : Traversals services lock point executor)
    {key : ServiceKey} {other : CallId}
    (here : (point call).handles = some key)
    (refers : (point other).iterator = some key) : other = call := by
  rcases Point.hasLock_or_executes refers with hasLock | executes
  · exact traversals.locked.unique hasLock (Point.hasLock_of_handles here)
  · have owner := (traversals.executes key).owner_eq executes
    rw [traversals.handled call key here] at owner
    cases owner

/-- The call that handles an entry removes it. -/
theorem erase (traversals : Traversals services lock point executor)
    {key : ServiceKey} (here : point call = .erasing key) :
    Traversals (services.erase key) lock
      (Function.update point call (.traversing (services.next key)))
      executor := by
  have handles : (point call).handles = some key := by rw [here]; rfl
  refine
    { locked := traversals.locked.keep (by rw [here]; rfl)
      executes := fun other => (traversals.executes other).keep
        (by rw [here]; rfl)
      processing := ?_
      valid := ?_
      handled := ?_ }
  · intro other
    rw [OrderedMap.lookup_erase]
    by_cases same : other = key
    · subst same
      simp [traversals.handled call other handles]
    · rw [if_neg same]
      exact traversals.processing other
  · rw [Function.forall_update_iff point fun _ => Point.IsValid _]
    constructor
    · intro later refers
      have after : services.next key = some later := refers
      rw [OrderedMap.lookup_erase, if_neg (services.next_ne after)]
      exact services.lookup_next after
    · intro other differ otherKey refers
      have otherThere := traversals.valid other otherKey refers
      have distinct : otherKey ≠ key := by
        rintro rfl
        exact differ (traversals.unreferenced handles refers)
      rw [OrderedMap.lookup_erase, if_neg distinct]
      exact otherThere
  · rw [Function.forall_update_iff point fun _ => Point.HandlesIdle _]
    constructor
    · rintro other ⟨⟩
    · exact fun other _ => traversals.handled other

end Traversals

/-! ## Unregistrations -/

/-- Some call is about to remove the entry. -/
def State.Erasing (state : State) (key : ServiceKey) : Prop :=
  ∃ call, state.point call = .erasing key

/-- The service is out of reach for an unregistration made after so many
registrations: it is not there, or about to be removed, or has been registered
again. -/
def State.IsGone (state : State) (key : ServiceKey)
    (registrations : Nat) : Prop :=
  (state.services.lookup key).isSome = true →
    registrations < state.registrations key ∨ state.Erasing key

/-- What the unregistrations keep. -/
structure Requests (state : State) : Prop where
  /-- The flag to be set is that of a waiting call, made after the last
  registration. -/
  discard : ∀ key data request, state.services.lookup key = some data →
    data.discard = some request →
      state.point request = .waiting key (state.registrations key) ∨
        state.Erasing key
  waiting : ∀ call key registrations,
    state.point call = .waiting key registrations →
      registrations ≤ state.registrations key ∧
        (state.unregistered call = true → state.IsGone key registrations)
  returned : ∀ key registrations,
    (key, registrations) ∈ state.returnedCalls →
      registrations ≤ state.registrations key ∧
        state.IsGone key registrations

/-- The requests are the same in both states. -/
structure State.SameRequests (state after : State) : Prop where
  waiting : ∀ call key registrations,
    after.point call = .waiting key registrations ↔
      state.point call = .waiting key registrations
  erasing : ∀ call key,
    after.point call = .erasing key ↔ state.point call = .erasing key
  discard : ∀ key,
    (after.services.lookup key).map ServiceData.discard =
      (state.services.lookup key).map ServiceData.discard
  unregistered : after.unregistered = state.unregistered
  registrations : after.registrations = state.registrations
  returnedCalls : after.returnedCalls = state.returnedCalls

namespace State.SameRequests

variable {state after : State}

theorem isSome (same : state.SameRequests after) (key : ServiceKey) :
    (after.services.lookup key).isSome =
      (state.services.lookup key).isSome := by
  have discards := congrArg Option.isSome (same.discard key)
  rwa [Option.isSome_map, Option.isSome_map] at discards

theorem erasing_iff (same : state.SameRequests after) (key : ServiceKey) :
    after.Erasing key ↔ state.Erasing key :=
  exists_congr fun call => same.erasing call key

theorem isGone_iff (same : state.SameRequests after) (key : ServiceKey)
    (registrations : Nat) :
    after.IsGone key registrations ↔ state.IsGone key registrations := by
  unfold State.IsGone
  rw [same.isSome, same.registrations, same.erasing_iff]

theorem requests (same : state.SameRequests after)
    (requests : Requests state) : Requests after where
  discard := by
    intro key data request found marked
    have discards := same.discard key
    rw [found, Option.map_some, eq_comm, Option.map_eq_some_iff] at discards
    obtain ⟨before, there, equal⟩ := discards
    rw [same.waiting, same.erasing_iff, same.registrations]
    exact requests.discard key before request there (equal.trans marked)
  waiting := by
    intro call key registrations here
    rw [same.waiting] at here
    rw [same.registrations, same.unregistered, same.isGone_iff]
    exact requests.waiting call key registrations here
  returned := by
    intro key registrations member
    rw [same.returnedCalls] at member
    rw [same.registrations, same.isGone_iff]
    exact requests.returned key registrations member

/-- A call moves between points that are neither waits nor removals. -/
theorem of_move {call : CallId} {before next : Point}
    (here : state.point call = before)
    (point : after.point = Function.update state.point call next)
    (plain : ∀ key, (∀ registrations, before ≠ .waiting key registrations) ∧
      before ≠ .erasing key ∧
      (∀ registrations, next ≠ .waiting key registrations) ∧
      next ≠ .erasing key)
    (discard : ∀ key,
      (after.services.lookup key).map ServiceData.discard =
        (state.services.lookup key).map ServiceData.discard)
    (unregistered : after.unregistered = state.unregistered)
    (registrations : after.registrations = state.registrations)
    (returnedCalls : after.returnedCalls = state.returnedCalls) :
    state.SameRequests after := by
  refine ⟨?_, ?_, discard, unregistered, registrations, returnedCalls⟩
  · intro other key count
    rw [point]
    exact Point.update_iff (here ▸ (plain key).1 count)
      ((plain key).2.2.1 count) other
  · intro other key
    rw [point]
    exact Point.update_iff (here ▸ (plain key).2.1) (plain key).2.2.2 other

end State.SameRequests

/-! ## The invariant -/

structure Invariant (state : State)
    (executor : ServiceKey → Option CallId) : Prop where
  traversals :
    Traversals state.services state.lock state.point executor
  requests : Requests state

/-- The call neither waits nor removes an entry. -/
def Point.IsPlain (point : Point) : Prop :=
  ∀ key, (∀ registrations, point ≠ .waiting key registrations) ∧
    point ≠ .erasing key

namespace Invariant

variable {state : State} {executor : ServiceKey → Option CallId}
  {call : CallId} {key : ServiceKey}

theorem move (invariant : Invariant state executor) {before : Point}
    {lock : Option CallId} (after : Point)
    (here : state.point call = before)
    (locked : OwnedBy Point.hasLock (Function.update state.point call after)
      lock)
    (plainBefore : before.IsPlain) (plainAfter : after.IsPlain)
    (executes : ∀ key, after.executes key = before.executes key)
    (valid : after.IsValid state.services)
    (handled : after.HandlesIdle executor) :
    Invariant (state.goesOn call lock after) executor where
  traversals := by
    subst here
    exact invariant.traversals.move after locked executes
      (fun _ there => there) (fun _ => rfl) valid handled
  requests := by
    refine State.SameRequests.requests ?_ invariant.requests
    exact .of_move here rfl
      (fun key => ⟨(plainBefore key).1, (plainBefore key).2,
        (plainAfter key).1, (plainAfter key).2⟩)
      (fun _ => rfl) rfl rfl rfl

/-- A move that keeps or does not have the lock. -/
theorem moveOn (invariant : Invariant state executor) {before : Point}
    (after : Point) (here : state.point call = before)
    (hasLock : after.hasLock = before.hasLock)
    (plainBefore : before.IsPlain) (plainAfter : after.IsPlain)
    (executes : ∀ key, after.executes key = before.executes key)
    (valid : after.IsValid state.services)
    (handled : after.HandlesIdle executor) :
    Invariant (state.setPoint call after) executor := by
  apply invariant.move after here _ plainBefore plainAfter executes valid
    handled
  exact invariant.traversals.locked.keep (by rw [here, hasLock])

theorem discard_setProcessing (services : Services) (key : ServiceKey)
    (processing : Bool) (other : ServiceKey) :
    ((services.modify key fun data =>
      { data with processing := processing }).lookup other).map
        ServiceData.discard =
      (services.lookup other).map ServiceData.discard := by
  rw [OrderedMap.lookup_modify]
  split
  · rename_i equal
    rw [Option.map_map, equal]
    rfl
  · rfl

theorem handleServices (invariant : Invariant state executor) {next : State}
    (taken : state.handleServices call = some next) :
    Invariant next executor := by
  unfold State.handleServices at taken
  split at taken
  · rename_i here free
    cases taken
    apply invariant.move (.traversing state.services.first) here
    · have unlocked := invariant.traversals.locked
      rw [free] at unlocked
      exact unlocked.take rfl
    · simp [Point.IsPlain]
    · simp [Point.IsPlain]
    · exact fun _ => rfl
    · exact fun key refers => state.services.lookup_first refers
    · exact fun _ handles => by cases handles
  · cases taken
    exact invariant
  · cases taken

theorem finish (invariant : Invariant state executor) {unregister : Bool}
    (here : state.point call = .executing key) :
    Invariant (state.setPoint call (.returned key unregister)) executor := by
  apply invariant.moveOn (.returned key unregister) here rfl
  · simp [Point.IsPlain]
  · simp [Point.IsPlain]
  · exact fun _ => rfl
  · have valid := invariant.traversals.valid call
    rw [here] at valid
    exact valid
  · exact fun _ handles => by cases handles

theorem leave (invariant : Invariant state executor)
    (here : state.point call = .traversing none) :
    Invariant (state.goesOn call none .outside) executor := by
  apply invariant.move .outside here
  · exact invariant.traversals.locked.drop (by rw [here]; rfl) rfl
  · simp [Point.IsPlain]
  · simp [Point.IsPlain]
  · exact fun _ => rfl
  · exact fun _ refers => by cases refers
  · exact fun _ handles => by cases handles

theorem visit (invariant : Invariant state executor) {data : ServiceData}
    (here : state.point call = .traversing (some key))
    (found : state.services.lookup key = some data) :
    ∃ after, Invariant (state.visit call key data) after := by
  unfold State.visit
  split
  · refine ⟨executor, ?_⟩
    apply invariant.moveOn (.traversing (state.services.next key)) here rfl
    · simp [Point.IsPlain]
    · simp [Point.IsPlain]
    · exact fun _ => rfl
    · exact fun _ refers => state.services.lookup_next refers
    · exact fun _ handles => by cases handles
  · rename_i idle
    rw [Bool.not_eq_true] at idle
    split
    · refine ⟨executor, ?_⟩
      apply invariant.moveOn (.signaling key) here rfl
      · simp [Point.IsPlain]
      · simp [Point.IsPlain]
      · exact fun _ => rfl
      · rintro other ⟨⟩
        rw [found]
        rfl
      · rintro other ⟨⟩
        have flag := invariant.traversals.processing key
        rw [found, Option.any_some, idle, Option.isSome_eq_false_iff,
          Option.isNone_iff_eq_none] at flag
        exact flag
    · refine ⟨_, invariant.traversals.execute here found idle, ?_⟩
      refine State.SameRequests.requests ?_ invariant.requests
      exact .of_move here rfl (by simp)
        (discard_setProcessing state.services key _) rfl rfl rfl

theorem relock (invariant : Invariant state executor) {unregister : Bool}
    (here : state.point call = .returned key unregister)
    (free : state.lock = none) :
    ∃ after, Invariant (state.relock call key unregister) after := by
  have traversals := invariant.traversals
  rw [free] at traversals
  refine ⟨_, traversals.relock here, ?_⟩
  refine State.SameRequests.requests ?_ invariant.requests
  exact .of_move here rfl (by simp)
    (discard_setProcessing state.services key _) rfl rfl rfl

theorem processed (invariant : Invariant state executor) {unregister : Bool}
    {data : ServiceData} (here : state.point call = .processed key unregister)
    (found : state.services.lookup key = some data) :
    Invariant
      (state.setPoint call
        (if unregister || data.discard.isSome then .signaling key
        else .traversing (state.services.next key))) executor := by
  split
  · apply invariant.moveOn (.signaling key) here rfl
    · simp [Point.IsPlain]
    · simp [Point.IsPlain]
    · exact fun _ => rfl
    · rintro other ⟨⟩
      rw [found]
      rfl
    · have handled := invariant.traversals.handled call
      rw [here] at handled
      exact handled
  · apply invariant.moveOn (.traversing (state.services.next key)) here rfl
    · simp [Point.IsPlain]
    · simp [Point.IsPlain]
    · exact fun _ => rfl
    · exact fun _ refers => state.services.lookup_next refers
    · exact fun _ handles => by cases handles

/-- The call with the lock is the only one that removes an entry. -/
theorem not_erasing (invariant : Invariant state executor)
    {before : Point} (here : state.point call = before)
    (hasLock : before.hasLock = true)
    (other : before ≠ .erasing key) : ¬ state.Erasing key := by
  rintro ⟨eraser, erasing⟩
  have same : eraser = call := invariant.traversals.locked.unique
    (by rw [erasing]; rfl) (by rw [here, hasLock])
  subst same
  rw [here] at erasing
  exact other erasing

/-- Whoever takes the lock finds no removal under way. -/
theorem not_erasing_of_free (invariant : Invariant state executor)
    (free : state.lock = none) : ¬ state.Erasing key := by
  rintro ⟨eraser, erasing⟩
  have owner := invariant.traversals.locked.owner_eq
    (show (state.point eraser).hasLock = true by rw [erasing]; rfl)
  rw [free] at owner
  cases owner

theorem signal (invariant : Invariant state executor) {data : ServiceData}
    (here : state.point call = .signaling key)
    (found : state.services.lookup key = some data) :
    Invariant (state.signal call key data) executor := by
  have traversals := invariant.traversals
  have valid := traversals.valid call
  have handled := traversals.handled call
  rw [here] at valid handled
  have point : (state.signal call key data).point =
      Function.update state.point call (.erasing key) := rfl
  have erases : (state.signal call key data).Erasing key :=
    ⟨call, by rw [point, Function.update_self]⟩
  have waits : ∀ other otherKey registrations,
      (state.signal call key data).point other =
          .waiting otherKey registrations ↔
        state.point other = .waiting otherKey registrations := by
    intro other otherKey registrations
    rw [point]
    exact Point.update_iff (by simp [here]) (by simp) other
  have erasing : ∀ otherKey, state.Erasing otherKey →
      (state.signal call key data).Erasing otherKey := by
    intro otherKey before
    exact absurd before (invariant.not_erasing here rfl (by simp))
  have gone : ∀ otherKey registrations, state.IsGone otherKey registrations →
      (state.signal call key data).IsGone otherKey registrations := by
    intro otherKey registrations before there
    exact (before there).imp_right (erasing otherKey)
  refine ⟨?_, ?_, ?_, ?_⟩
  · apply traversals.move (.erasing key)
    · exact traversals.locked.keep (by rw [here]; rfl)
    · intro other
      rw [here]
      rfl
    · exact fun _ there => there
    · exact fun _ => rfl
    · exact valid
    · exact handled
  · intro otherKey otherData request there marked
    rw [waits]
    exact (invariant.requests.discard otherKey otherData request there
      marked).imp_right (erasing otherKey)
  · intro other otherKey registrations waiting
    rw [waits] at waiting
    obtain ⟨bound, signaled⟩ :=
      invariant.requests.waiting other otherKey registrations waiting
    refine ⟨bound, fun flag => ?_⟩
    by_cases before : state.unregistered other = true
    · exact gone otherKey registrations (signaled before)
    · -- The flag that is set is that of the entry about to be removed.
      have marked : data.discard = some other := by
        by_contra differ
        apply before
        rw [← flag]
        unfold State.signal
        split
        · rename_i request marked
          rw [marked] at differ
          exact (Function.update_of_ne
            (fun equal => differ (by rw [equal])) ..).symm
        · rfl
      have same := invariant.requests.discard key data other found marked
      rw [or_iff_left (invariant.not_erasing here rfl (by simp)), waiting]
        at same
      cases same
      exact fun _ => Or.inr erases
  · intro otherKey registrations member
    obtain ⟨bound, before⟩ :=
      invariant.requests.returned otherKey registrations member
    exact ⟨bound, gone otherKey registrations before⟩

theorem eraseService (invariant : Invariant state executor)
    (here : state.point call = .erasing key) :
    Invariant (state.eraseService call key) executor := by
  have point : (state.eraseService call key).point =
      Function.update state.point call
        (.traversing (state.services.next key)) := rfl
  have lookup : ∀ other, (state.eraseService call key).services.lookup other =
      if other = key then none else state.services.lookup other :=
    state.services.lookup_erase key
  have waits : ∀ other otherKey registrations,
      (state.eraseService call key).point other =
          .waiting otherKey registrations ↔
        state.point other = .waiting otherKey registrations := by
    intro other otherKey registrations
    rw [point]
    exact Point.update_iff (by simp [here]) (by simp) other
  have erasing : ∀ otherKey, otherKey ≠ key → ¬ state.Erasing otherKey := by
    intro otherKey differ
    exact invariant.not_erasing here rfl (by simpa using Ne.symm differ)
  have gone : ∀ otherKey registrations, state.IsGone otherKey registrations →
      (state.eraseService call key).IsGone otherKey registrations := by
    intro otherKey registrations before there
    rw [lookup] at there
    split at there
    · cases there
    · rename_i differ
      exact (before there).imp_right fun impossible =>
        absurd impossible (erasing otherKey differ)
  refine ⟨invariant.traversals.erase here, ?_, ?_, ?_⟩
  · intro otherKey data request there marked
    rw [lookup] at there
    split at there
    · cases there
    · rename_i differ
      rw [waits]
      exact (invariant.requests.discard otherKey data request there
        marked).imp_right fun impossible =>
          absurd impossible (erasing otherKey differ)
  · intro other otherKey registrations waiting
    rw [waits] at waiting
    obtain ⟨bound, signaled⟩ :=
      invariant.requests.waiting other otherKey registrations waiting
    exact ⟨bound, fun flag =>
      gone otherKey registrations (signaled flag)⟩
  · intro otherKey registrations member
    obtain ⟨bound, before⟩ :=
      invariant.requests.returned otherKey registrations member
    exact ⟨bound, gone otherKey registrations before⟩

theorem returns (invariant : Invariant state executor) {registrations : Nat}
    (here : state.point call = .waiting key registrations)
    (flag : state.unregistered call = true) :
    Invariant (state.returns call key registrations) executor := by
  have traversals := invariant.traversals
  obtain ⟨bound, signaled⟩ :=
    invariant.requests.waiting call key registrations here
  have point : (state.returns call key registrations).point =
      Function.update state.point call .outside := rfl
  have erasing : ∀ otherKey,
      (state.returns call key registrations).Erasing otherKey ↔
        state.Erasing otherKey := by
    intro otherKey
    apply exists_congr
    intro other
    rw [point]
    exact Point.update_iff (by simp [here]) (by simp) other
  have gone : ∀ otherKey count, state.IsGone otherKey count →
      (state.returns call key registrations).IsGone otherKey count := by
    intro otherKey count before there
    rw [erasing]
    exact before there
  refine ⟨?_, ?_, ?_, ?_⟩
  · apply traversals.move .outside
    · exact traversals.locked.keep (by rw [here]; rfl)
    · intro other
      rw [here]
      rfl
    · exact fun _ there => there
    · exact fun _ => rfl
    · exact fun _ refers => by cases refers
    · exact fun _ handles => by cases handles
  · intro otherKey data request there marked
    change state.services.lookup otherKey = some data at there
    rw [erasing]
    rcases invariant.requests.discard otherKey data request there marked with
      waiting | removed
    · by_cases same : request = call
      · -- Its flag has been set, so the entry is about to be removed.
        subst same
        rw [here] at waiting
        cases waiting
        rcases signaled flag (by rw [there]; rfl) with again | removed
        · exact absurd again (lt_irrefl _)
        · exact Or.inr removed
      · left
        rw [point, Function.update_of_ne same]
        exact waiting
    · exact Or.inr removed
  · intro other otherKey count waiting
    rw [point] at waiting
    obtain ⟨otherBound, otherSignaled⟩ := invariant.requests.waiting other
      otherKey count (Point.of_update waiting (by simp)).2
    exact ⟨otherBound, fun otherFlag =>
      gone otherKey count (otherSignaled otherFlag)⟩
  · intro otherKey count member
    rcases List.mem_cons.mp member with equal | before
    · cases equal
      exact ⟨bound, gone key registrations (signaled flag)⟩
    · obtain ⟨otherBound, otherGone⟩ :=
        invariant.requests.returned otherKey count before
      exact ⟨otherBound, gone otherKey count otherGone⟩

/-- A registration leaves the entry unmarked and the other ones as they are. -/
theorem registered (invariant : Invariant state executor)
    {services : Services}
    (lookup : ∀ other, other ≠ key →
      services.lookup other = state.services.lookup other)
    (unmarked : ∃ data, services.lookup key = some data ∧
      data.discard = none ∧
      data.processing =
        (state.services.lookup key).any ServiceData.processing) :
    Invariant
      { state with
        services := services
        registrations :=
          Function.update state.registrations key
            (state.registrations key + 1) } executor := by
  obtain ⟨data, found, noMark, processing⟩ := unmarked
  have more : ∀ other, state.registrations other ≤
      Function.update state.registrations key
        (state.registrations key + 1) other := by
    intro other
    by_cases same : other = key
    · subst same
      rw [Function.update_self]
      exact Nat.le_succ _
    · rw [Function.update_of_ne same]
  have gone : ∀ other count, count ≤ state.registrations other →
      state.IsGone other count →
        State.IsGone { state with
          services := services
          registrations :=
            Function.update state.registrations key
              (state.registrations key + 1) } other count := by
    intro other count bound before there
    by_cases same : other = key
    · subst same
      left
      change count < Function.update state.registrations other _ other
      rw [Function.update_self]
      exact Nat.lt_succ_of_le bound
    · change (services.lookup other).isSome = true at there
      rw [lookup other same] at there
      change count < Function.update state.registrations key _ other ∨ _
      rw [Function.update_of_ne same]
      exact before there
  refine ⟨?_, ?_, ?_, ?_⟩
  · apply invariant.traversals.change
    · intro other there
      by_cases same : other = key
      · subst same
        rw [found]
        rfl
      · rw [lookup other same]
        exact there
    · intro other
      by_cases same : other = key
      · subst same
        rw [found, Option.any_some, processing]
      · rw [lookup other same]
  · intro other otherData request there marked
    change services.lookup other = some otherData at there
    by_cases same : other = key
    · subst same
      rw [found] at there
      cases there
      rw [noMark] at marked
      cases marked
    · rw [lookup other same] at there
      change state.point request =
        .waiting other (Function.update state.registrations key _ other) ∨ _
      rw [Function.update_of_ne same]
      exact invariant.requests.discard other otherData request there marked
  · intro other otherKey count waiting
    obtain ⟨bound, signaled⟩ :=
      invariant.requests.waiting other otherKey count waiting
    exact ⟨bound.trans (more otherKey), fun flag =>
      gone otherKey count bound (signaled flag)⟩
  · intro otherKey count member
    obtain ⟨bound, before⟩ :=
      invariant.requests.returned otherKey count member
    exact ⟨bound.trans (more otherKey), gone otherKey count bound before⟩

theorem register (invariant : Invariant state executor) {next : State}
    (taken : state.register key = some next) : Invariant next executor := by
  unfold State.register at taken
  split at taken
  · rename_i free missing
    cases taken
    apply invariant.registered
    · intro other differ
      rw [OrderedMap.lookup_insert, if_neg differ]
    · exact ⟨{}, by simp [OrderedMap.lookup_insert, missing], rfl,
        by simp [missing]⟩
  · rename_i data free found
    split at taken
    · cases taken
      apply invariant.registered
      · intro other differ
        rw [OrderedMap.lookup_modify, if_neg differ]
      · exact ⟨{ data with discard := none },
          by simp [OrderedMap.lookup_modify, found], rfl, by simp [found]⟩
    · cases taken
  · cases taken

/-- A call marks an entry and waits. -/
theorem mark (invariant : Invariant state executor) {data : ServiceData}
    (free : state.lock = none)
    (found : state.services.lookup key = some data)
    (here : state.point call = .outside) :
    Invariant (state.mark call key) executor := by
  have traversals := invariant.traversals
  have lookup : ∀ other, (state.mark call key).services.lookup other =
      if other = key then some { data with discard := some call }
      else state.services.lookup other := by
    intro other
    refine (OrderedMap.lookup_modify ..).trans ?_
    rw [found]
    rfl
  have isSome : ∀ other,
      ((state.mark call key).services.lookup other).isSome =
        (state.services.lookup other).isSome := by
    intro other
    rw [lookup]
    split
    · rename_i same
      rw [same, found]
      rfl
    · rfl
  have gone : ∀ other count, state.IsGone other count →
      (state.mark call key).IsGone other count := by
    intro other count before there
    rw [isSome] at there
    exact (before there).imp_right fun impossible =>
      absurd impossible (invariant.not_erasing_of_free free)
  have point : (state.mark call key).point =
      Function.update state.point call
        (.waiting key (state.registrations key)) := rfl
  refine ⟨?_, ?_, ?_, ?_⟩
  · apply traversals.move (.waiting key (state.registrations key))
    · exact traversals.locked.keep (by rw [here]; rfl)
    · intro other
      rw [here]
      rfl
    · intro other there
      rw [isSome]
      exact there
    · intro other
      rw [lookup]
      split
      · rename_i same
        rw [same, found]
        rfl
      · rfl
    · exact fun _ refers => by cases refers
    · exact fun _ handles => by cases handles
  · intro other otherData request there marked
    left
    rw [lookup] at there
    rw [point]
    split at there
    · rename_i same
      cases there
      cases marked
      rw [Function.update_self, same]
      rfl
    · have before := invariant.requests.discard other otherData request
        there marked
      rw [or_iff_left (invariant.not_erasing_of_free free)] at before
      have differ : request ≠ call := by
        rintro rfl
        rw [here] at before
        cases before
      rw [Function.update_of_ne differ, before]
      rfl
  · intro other otherKey count waiting
    rw [point] at waiting
    change count ≤ state.registrations otherKey ∧
      (Function.update state.unregistered call false other = true → _)
    by_cases same : other = call
    · subst same
      rw [Function.update_self] at waiting ⊢
      cases waiting
      exact ⟨le_rfl, fun flag => by cases flag⟩
    · rw [Function.update_of_ne same] at waiting ⊢
      obtain ⟨bound, signaled⟩ :=
        invariant.requests.waiting other otherKey count waiting
      exact ⟨bound, fun flag => gone otherKey count (signaled flag)⟩
  · intro otherKey count member
    obtain ⟨bound, before⟩ :=
      invariant.requests.returned otherKey count member
    exact ⟨bound, gone otherKey count before⟩

theorem unregister (invariant : Invariant state executor) {next : State}
    (taken : state.unregister call key = some next) :
    Invariant next executor := by
  unfold State.unregister at taken
  split at taken
  · rename_i data free found here
    split at taken
    · cases taken
      exact invariant.mark free found here
    · cases taken
  · cases taken

theorem advance (invariant : Invariant state executor) {next : State}
    (taken : advance state call = some next) :
    ∃ after, Invariant next after := by
  unfold PollingServices.advance at taken
  split at taken
  · cases taken
  · rename_i here
    cases taken
    exact ⟨executor, invariant.leave here⟩
  · rename_i key here
    obtain ⟨data, found, rfl⟩ := Option.map_eq_some_iff.mp taken
    exact invariant.visit here found
  · cases taken
  · rename_i key unregister here
    split at taken
    · rename_i free
      cases taken
      exact invariant.relock here (Option.isNone_iff_eq_none.mp free)
    · cases taken
  · rename_i key unregister here
    obtain ⟨data, found, rfl⟩ := Option.map_eq_some_iff.mp taken
    exact ⟨executor, invariant.processed here found⟩
  · rename_i key here
    obtain ⟨data, found, rfl⟩ := Option.map_eq_some_iff.mp taken
    exact ⟨executor, invariant.signal here found⟩
  · rename_i key here
    cases taken
    exact ⟨executor, invariant.eraseService here⟩
  · rename_i key registrations here
    split at taken
    · rename_i flag
      cases taken
      exact ⟨executor, invariant.returns here flag⟩
    · cases taken

theorem step (invariant : Invariant state executor) {action : Action}
    {next : State} (taken : step state action = some next) :
    ∃ after, Invariant next after := by
  cases action with
  | register key => exact ⟨executor, invariant.register taken⟩
  | unregister call key => exact ⟨executor, invariant.unregister taken⟩
  | handleServices call => exact ⟨executor, invariant.handleServices taken⟩
  | finish call unregister =>
      simp only [PollingServices.step] at taken
      split at taken
      · rename_i key here
        cases taken
        exact ⟨executor, invariant.finish here⟩
      · cases taken
  | advance call => exact invariant.advance taken

theorem initial : Invariant {} fun _ => none where
  traversals :=
    { locked := by simp [OwnedBy, Point.hasLock]
      executes := by simp [OwnedBy, Point.executes]
      processing := by simp
      valid := fun _ _ refers => by cases refers
      handled := fun _ _ handles => by cases handles }
  requests :=
    { discard := by simp
      waiting := by simp
      returned := by simp }

end Invariant

/-- A state that some run reaches from no services. -/
def Reaches (state : State) : Prop :=
  Run step (fun _ _ => True) {} state

theorem invariant_of_reaches {state : State} (reached : Reaches state) :
    ∃ executor, Invariant state executor := by
  unfold Reaches at reached
  apply reached.invariant ⟨_, Invariant.initial⟩
  intro state action next known _ taken
  obtain ⟨executor, invariant⟩ := known
  exact invariant.step taken

/-! ## What the protocol guarantees -/

structure State.IsSafe (state : State) : Prop where
  /-- A service is executed by one call at a time. -/
  exclusive : ∀ key first second,
    (state.point first).executes key = true →
      (state.point second).executes key = true → first = second
  /-- The entry of a service that is executed is there, with its flag. -/
  present : ∀ key call, (state.point call).executes key = true →
    ∃ data, state.services.lookup key = some data ∧ data.processing = true
  valid : ∀ call key, (state.point call).iterator = some key →
    (state.services.lookup key).isSome = true
  /-- An entry that is about to be removed is not executed, and no other
  traversal refers to it. -/
  removed : ∀ call key, state.point call = .erasing key →
    ∀ other, other ≠ call →
      (state.point other).executes key = false ∧
        (state.point other).iterator ≠ some key
  /-- A service that is executed after an unregistration has returned has been
  registered since. -/
  unregistered : ∀ key registrations,
    (key, registrations) ∈ state.returnedCalls →
      ∀ call, (state.point call).executes key = true →
        registrations < state.registrations key

theorem isSafe_of_reaches {state : State} (reached : Reaches state) :
    state.IsSafe := by
  obtain ⟨executor, traversals, requests⟩ := invariant_of_reaches reached
  have present : ∀ key call, (state.point call).executes key = true →
      ∃ data, state.services.lookup key = some data ∧
        data.processing = true := by
    intro key call executes
    have flag := traversals.processing key
    rw [(traversals.executes key).owner_eq executes, Option.isSome_some,
      eq_comm] at flag
    exact (Option.any_eq_true _ _).mp flag
  have idle : ∀ key call, state.point call = .erasing key →
      ∀ other, (state.point other).executes key = false := by
    intro key call erasing other
    rw [Bool.eq_false_iff]
    intro executes
    have owner := (traversals.executes key).owner_eq executes
    rw [traversals.handled call key (by rw [erasing]; rfl)] at owner
    cases owner
  exact
    { exclusive := fun key _ _ first second =>
        (traversals.executes key).unique first second
      present := present
      valid := traversals.valid
      removed := by
        intro call key erasing other differ
        refine ⟨idle key call erasing other, fun refers => differ ?_⟩
        exact traversals.unreferenced (by rw [erasing]; rfl) refers
      unregistered := by
        intro key registrations member call executes
        obtain ⟨-, gone⟩ := requests.returned key registrations member
        obtain ⟨data, found, -⟩ := present key call executes
        rcases gone (by rw [found]; rfl) with again | ⟨eraser, erasing⟩
        · exact again
        · rw [idle key eraser erasing call] at executes
          cases executes }

/-- Service 1 is unregistered by call 3 while call 1 executes it, which then
removes it; it is registered again and executed by call 2. -/
def reregistration : List Action :=
  let key : ServiceKey := toLex (1, 0)
  List.flatten
    [[.register key, .handleServices 1, .advance 1, .unregister 3 key,
        .handleServices 2, .advance 2, .advance 2, .finish 1 false],
      List.replicate 5 (.advance 1),
      [.advance 3, .register key, .handleServices 2, .advance 2]]

theorem isSafe_reregistration :
    ∃ state, Reaches state ∧ state.point 2 = .executing (toLex (1, 0)) ∧
      state.returnedCalls = [(toLex (1, 0), 1)] ∧ state.IsSafe := by
  let executed (state : State) : Bool :=
    decide (state.point 2 = .executing (toLex (1, 0))) &&
      decide (state.returnedCalls = [(toLex (1, 0), 1)])
  obtain ⟨state, run, holds⟩ :
      ∃ state, Run step (fun _ _ => True) {} state ∧
        executed state = true :=
    exists_run_of_executeAllowed reregistration {} executed (by decide)
  simp only [executed, Bool.and_eq_true, decide_eq_true_eq] at holds
  exact ⟨state, run, holds.1, holds.2, isSafe_of_reaches run⟩

end Nanos6.PollingServices
