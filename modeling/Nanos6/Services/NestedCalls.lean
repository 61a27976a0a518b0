import Mathlib.Algebra.Order.BigOperators.Group.Finset
import Nanos6.Foundation.Ranking
import Nanos6.Services.PendingUnregistrations

/-!
# Calls made by services

The function of a service may call `nanos6_unregister_polling_service`, and an
unregistration that waits calls `handleServices` over and over.  The outer call
goes on when the inner one has returned.  An unregistration waits for ever if the
execution of its service waits for it in turn, as when a service unregisters
itself.  Unless that happens, or a service is registered again while its
unregistration is pending, every unregistration can be completed.
-/

namespace Nanos6.PollingServices

open Foundation

namespace Point

def isExecuting : Point → Bool
  | .executing _ => true
  | _ => false

/-- The function of a service, or the loop of an unregistration. -/
def makesCalls (point : Point) : Bool :=
  point.isExecuting || point.isWaiting

end Point

structure Calls where
  registry : State := {}
  /-- The call that a call has made and that has not returned yet. -/
  inner : CallId → Option CallId := fun _ => none

namespace Calls

inductive Action where
  | register (key : ServiceKey)
  | unregister (outer : Option CallId) (call : CallId) (key : ServiceKey)
  | handleServices (outer : Option CallId) (call : CallId)
  | finish (call : CallId) (unregister : Bool)
  | advance (call : CallId)
  deriving DecidableEq

/-- What the registry sees of the step. -/
def Action.ofRegistry : Action → PollingServices.Action
  | .register key => .register key
  | .unregister _ call key => .unregister call key
  | .handleServices _ call => .handleServices call
  | .finish call answer => .finish call answer
  | .advance call => .advance call

/-- A call is made from outside, or by a call that is not making another one. -/
def mayCall (calls : Calls) (makes : Point → Bool) : Option CallId → Bool
  | none => true
  | some outer =>
      (calls.inner outer).isNone && makes (calls.registry.point outer)

def enters (calls : Calls) (outer : Option CallId) (call : CallId)
    (registry : State) : Calls where
  registry := registry
  inner :=
    match outer with
    | none => calls.inner
    | some outer => Function.update calls.inner outer (some call)

/-- A call goes on, and may return to the one that has made it. -/
def goesOn (calls : Calls) (call : CallId) (registry : State) : Calls where
  registry := registry
  inner := fun outer =>
    if registry.point call = .outside ∧ calls.inner outer = some call then none
    else calls.inner outer

def step (calls : Calls) : Action → Option Calls
  | .register key =>
      (calls.registry.register key).map fun registry =>
        { calls with registry := registry }
  | .unregister outer call key =>
      if calls.mayCall Point.isExecuting outer then
        (calls.registry.unregister call key).map (calls.enters outer call)
      else none
  | .handleServices outer call =>
      if calls.mayCall Point.makesCalls outer then
        (calls.registry.handleServices call).map fun registry =>
          -- Without the lock the call has returned at once.
          if calls.registry.lock.isNone then calls.enters outer call registry
          else calls
      else none
  | .finish call unregister =>
      if (calls.inner call).isNone then
        (PollingServices.step calls.registry (.finish call unregister)).map
          (calls.goesOn call)
      else none
  | .advance call =>
      if (calls.inner call).isNone then
        (PollingServices.advance calls.registry call).map (calls.goesOn call)
      else none

end Calls

/-- The unregistration waits for a service that the other call executes. -/
def State.Waits (state : State) (call other : CallId) : Prop :=
  ∃ key registrations, state.point call = .waiting key registrations ∧
    state.unregistered call = false ∧
    (state.point other).executes key = true

namespace Calls

/-- A call cannot go on before the other one has come further. -/
def Awaits (calls : Calls) (call other : CallId) : Prop :=
  calls.inner call = some other ∨ calls.registry.Waits call other

/-- No registration finds its service marked for removal, and no service function
unregisters a service whose execution waits for that function. -/
def Permitted (calls : Calls) : Action → Prop
  | .register key => PollingServices.Permitted calls.registry (.register key)
  | .unregister (some outer) _ key =>
      ∀ other, (calls.registry.point other).executes key = true →
        ¬ Relation.ReflTransGen calls.Awaits other outer
  | _ => True

/-- The step belongs to a call in progress, or starts a call of
`handleServices`. -/
def Action.isHandling : Action → Bool
  | .handleServices _ _ | .finish _ _ | .advance _ => true
  | _ => false

/-- Runs in which nothing is registered or unregistered. -/
abbrev Handles : Calls → Calls → Prop :=
  Run step fun _ action => action.isHandling = true

/-- The flag of the call can be set by going on with `handleServices`. -/
def CanComplete (calls : Calls) (call : CallId) : Prop :=
  ∃ target, Handles calls target ∧ target.registry.unregistered call = true

/-- What is promised to a call that has set up its request and has not
returned. -/
structure IsSignalable (calls : Calls) (call : CallId) : Prop where
  /-- Its flag is set, or exactly one entry has the address of the flag. -/
  recorded : calls.registry.unregistered call = true ∨
    ∃! key, ∃ data, calls.registry.services.lookup key = some data ∧
      data.discard = some call
  /-- Calls of `handleServices` can set the flag. -/
  canComplete : calls.CanComplete call

/-! ## Steps -/

variable {calls next : Calls}

theorem step_ofRegistry {action : Action}
    (taken : step calls action = some next) :
    PollingServices.step calls.registry action.ofRegistry =
      some next.registry := by
  cases action with
  | register key =>
      obtain ⟨registry, registered, rfl⟩ := Option.map_eq_some_iff.mp taken
      exact registered
  | unregister outer call key =>
      simp only [step] at taken
      split at taken
      · obtain ⟨registry, marked, rfl⟩ := Option.map_eq_some_iff.mp taken
        exact marked
      · cases taken
  | handleServices outer call =>
      simp only [step] at taken
      split at taken
      · obtain ⟨registry, handled, rfl⟩ := Option.map_eq_some_iff.mp taken
        change calls.registry.handleServices call = _
        split
        · exact handled
        · rename_i locked
          rw [handled]
          unfold State.handleServices at handled
          split at handled
          · rename_i free
            exact absurd (by rw [free]; rfl) locked
          · exact handled.symm
          · cases handled
      · cases taken
  | finish call unregister =>
      simp only [step] at taken
      split at taken
      · obtain ⟨registry, finished, rfl⟩ := Option.map_eq_some_iff.mp taken
        exact finished
      · cases taken
  | advance call =>
      simp only [step] at taken
      split at taken
      · obtain ⟨registry, advanced, rfl⟩ := Option.map_eq_some_iff.mp taken
        exact advanced
      · cases taken

end Calls

/-! ## Who waits for whom -/

section Waits

variable {state next : State} {call other : CallId}

/-- A call moves on; it does not start to wait, nor to execute a service that
somebody waits for. -/
theorem State.Waits.of_move {moved : CallId} {point : Point}
    (waits : next.Waits call other)
    (updated : next.point = Function.update state.point moved point)
    (goes : point.isWaiting = false)
    (executes : ∀ key, point.executes key = true →
      (state.point moved).executes key = true ∨
        ∀ party registrations, state.point party = .waiting key registrations →
          state.unregistered party = true)
    (flags : next.unregistered call = false →
      state.unregistered call = false) :
    state.Waits call other := by
  obtain ⟨key, registrations, here, unset, executing⟩ := waits
  rw [updated] at here executing
  have differ : call ≠ moved := by
    rintro rfl
    rw [Function.update_self] at here
    rw [here] at goes
    cases goes
  rw [Function.update_of_ne differ] at here
  refine ⟨key, registrations, here, flags unset, ?_⟩
  by_cases same : other = moved
  · subst same
    rw [Function.update_self] at executing
    rcases executes key executing with before | nobody
    · exact before
    · rw [nobody call registrations here] at flags
      cases flags unset
  · rwa [Function.update_of_ne same] at executing

theorem waits_advance (recorded : Recorded state) {moved : CallId}
    (taken : advance state moved = some next)
    (waits : next.Waits call other) : state.Waits call other := by
  have idle : ∀ {point : Point}, (∀ key, point.executes key = false) →
      ∀ key, point.executes key = true →
        (state.point moved).executes key = true ∨
          ∀ party registrations,
            state.point party = .waiting key registrations →
              state.unregistered party = true := by
    intro point none key executes
    rw [none key] at executes
    cases executes
  unfold advance at taken
  split at taken
  · cases taken
  · cases taken
    exact waits.of_move rfl rfl (idle fun _ => rfl) id
  · rename_i key here
    obtain ⟨data, found, rfl⟩ := Option.map_eq_some_iff.mp taken
    unfold State.visit at waits
    split at waits
    · exact waits.of_move rfl rfl (idle fun _ => rfl) id
    · split at waits
      · exact waits.of_move rfl rfl (idle fun _ => rfl) id
      · rename_i unmarked
        refine waits.of_move rfl rfl (fun other executes => Or.inr ?_) id
        -- The entry has no mark, so nobody waits for the service.
        intro party registrations waiting
        obtain rfl : key = other := of_decide_eq_true executes
        by_contra unset
        have marked := recorded.waiting party key registrations waiting
          (Bool.not_eq_true _ ▸ unset)
        rw [State.mark?, found, Option.map_some, Option.some.injEq] at marked
        rw [marked] at unmarked
        exact unmarked rfl
  · cases taken
  · split at taken
    · cases taken
      exact waits.of_move rfl rfl (idle fun _ => rfl) id
    · cases taken
  · obtain ⟨data, found, rfl⟩ := Option.map_eq_some_iff.mp taken
    split at waits
    · exact waits.of_move rfl rfl (idle fun _ => rfl) id
    · exact waits.of_move rfl rfl (idle fun _ => rfl) id
  · rename_i key here
    obtain ⟨data, found, rfl⟩ := Option.map_eq_some_iff.mp taken
    refine waits.of_move rfl rfl (idle fun _ => rfl) fun unset => ?_
    refine Bool.eq_false_iff.mpr fun set => ?_
    rw [signal_unregistered set] at unset
    cases unset
  · cases taken
    exact waits.of_move rfl rfl (idle fun _ => rfl) id
  · split at taken
    · cases taken
      exact waits.of_move rfl rfl (idle fun _ => rfl) id
    · cases taken

theorem waits_finish {moved : CallId} {key : ServiceKey} {unregister : Bool}
    (here : state.point moved = .executing key)
    (waits : (state.setPoint moved (.returned key unregister)).Waits call
      other) : state.Waits call other := by
  refine waits.of_move rfl rfl (fun other executes => Or.inl ?_) id
  rw [here]
  exact executes

end Waits

/-! ## The invariant -/

/-- What holds in every state that is reached. -/
structure Nested (calls : Calls) : Prop where
  registry : Registry calls.registry
  started : ∀ call inner, calls.inner call = some inner →
    calls.registry.point inner ≠ .outside
  makes : ∀ call inner, calls.inner call = some inner →
    (calls.registry.point call).makesCalls = true
  /-- Nobody waits for itself. -/
  ranked : IsRanked calls.Awaits

namespace Nested

variable {calls : Calls} {registry : State} {call : CallId}

theorem initial : Nested {} where
  registry := Registry.initial
  started := by simp
  makes := by simp
  ranked := by
    refine ⟨fun _ => 0, ?_⟩
    rintro call other (inner | ⟨key, registrations, here, -⟩)
    · cases inner
    · cases here

/-- A call without an inner one goes on. -/
theorem goesOn (nested : Nested calls) (next : Registry registry)
    (innermost : calls.inner call = none) {point : Point}
    (updated : registry.point =
      Function.update calls.registry.point call point)
    (fewer : ∀ caller other, registry.Waits caller other →
      calls.registry.Waits caller other) :
    Nested (calls.goesOn call registry) := by
  have before : ∀ caller inner,
      (calls.goesOn call registry).inner caller = some inner →
        calls.inner caller = some inner ∧
          ¬ (registry.point call = .outside ∧ inner = call) := by
    intro caller inner made
    change (if _ then none else calls.inner caller) = _ at made
    split at made
    · cases made
    · rename_i remains
      refine ⟨made, fun left => remains ⟨left.1, ?_⟩⟩
      rw [made, left.2]
  constructor
  · exact next
  · intro caller inner made
    obtain ⟨old, remains⟩ := before caller inner made
    intro outside
    change registry.point inner = .outside at outside
    by_cases same : inner = call
    · exact remains ⟨same ▸ outside, same⟩
    · rw [updated, Function.update_of_ne same] at outside
      exact nested.started caller inner old outside
  · intro caller inner made
    have old := (before caller inner made).1
    have differ : caller ≠ call := by
      rintro rfl
      rw [innermost] at old
      cases old
    change (registry.point caller).makesCalls = true
    rw [updated, Function.update_of_ne differ]
    exact nested.makes caller inner old
  · refine nested.ranked.mono fun caller other awaits => ?_
    rcases awaits with made | waits
    · exact Or.inl (before caller other made).1
    · exact Or.inr (fewer caller other waits)

/-- A new call, which may wait for the one that executes its service. -/
theorem enters (nested : Nested calls) (next : Registry registry)
    {outer : Option CallId} (executor : Option CallId)
    {makes : Point → Bool}
    (may : calls.mayCall makes outer = true)
    (made : ∀ point, makes point = true → point.makesCalls = true)
    {point : Point} (outside : calls.registry.point call = .outside)
    (updated : registry.point =
      Function.update calls.registry.point call point)
    (inside : point ≠ .outside)
    (executes : ∀ other ∈ executor,
      ∃ key, (calls.registry.point other).executes key = true)
    (edges : ∀ caller other, registry.Waits caller other →
      calls.registry.Waits caller other ∨ caller = call ∧ other ∈ executor)
    (apart : ∀ above ∈ outer, ∀ below ∈ executor,
      ¬ Relation.ReflTransGen calls.Awaits below above) :
    Nested (calls.enters outer call registry) := by
  have callerMakes : ∀ caller ∈ outer,
      (calls.registry.point caller).makesCalls = true := by
    rintro caller ⟨⟩
    simp only [Calls.mayCall, Bool.and_eq_true] at may
    exact made _ may.2
  have differs : ∀ caller,
      (calls.registry.point caller).makesCalls = true → caller ≠ call := by
    rintro caller makesCalls rfl
    rw [outside] at makesCalls
    cases makesCalls
  have before : ∀ caller inner,
      (calls.enters outer call registry).inner caller = some inner →
        calls.inner caller = some inner ∨ caller ∈ outer ∧ inner = call := by
    intro caller inner here
    cases outer with
    | none => exact Or.inl here
    | some outer =>
        change Function.update calls.inner outer (some call) caller = _
          at here
        by_cases same : caller = outer
        · subst same
          rw [Function.update_self] at here
          cases here
          exact Or.inr ⟨rfl, rfl⟩
        · rw [Function.update_of_ne same] at here
          exact Or.inl here
  constructor
  · exact next
  · intro caller inner here
    change registry.point inner ≠ .outside
    rw [updated]
    rcases before caller inner here with old | ⟨-, rfl⟩
    · have differ : inner ≠ call := by
        rintro rfl
        exact nested.started caller inner old outside
      rw [Function.update_of_ne differ]
      exact nested.started caller inner old
    · rw [Function.update_self]
      exact inside
  · intro caller inner here
    have makesCalls : (calls.registry.point caller).makesCalls = true := by
      rcases before caller inner here with old | ⟨isOuter, -⟩
      · exact nested.makes caller inner old
      · exact callerMakes caller isOuter
    change (registry.point caller).makesCalls = true
    rwa [updated, Function.update_of_ne (differs caller makesCalls)]
  · refine nested.ranked.insert call outer executor ?_ ?_ ?_ ?_
    · intro other
      constructor
      · rintro (inner | ⟨key, registrations, here, -⟩)
        · exact differs call (nested.makes call other inner) rfl
        · rw [outside] at here
          cases here
      · rintro (inner | ⟨key, registrations, -, -, here⟩)
        · exact nested.started other call inner outside
        · rw [outside] at here
          cases here
    · exact fun above isOuter =>
        ⟨differs above (callerMakes above isOuter), apart above isOuter⟩
    · rintro below isExecutor rfl
      obtain ⟨key, here⟩ := executes below isExecutor
      rw [outside] at here
      cases here
    · rintro caller other (inner | waits)
      · rcases before caller other inner with old | outermost
        · exact Or.inl (Or.inl old)
        · exact Or.inr (Or.inl outermost)
      · rcases edges caller other waits with old | isNew
        · exact Or.inl (Or.inr old)
        · exact Or.inr (Or.inr isNew)

theorem unregister (nested : Nested calls) {outer : Option CallId}
    {key : ServiceKey}
    (permitted : calls.Permitted (.unregister outer call key))
    (may : calls.mayCall Point.isExecuting outer = true)
    (next : Registry registry)
    (taken : calls.registry.unregister call key = some registry) :
    Nested (calls.enters outer call registry) := by
  obtain ⟨executor, invariant⟩ := nested.registry.invariant
  unfold State.unregister at taken
  split at taken
  · rename_i data free found outside
    split at taken
    · cases taken
      have executed := invariant.traversals.executes key
      refine nested.enters next (executor key) may ?_ outside rfl (by simp)
        ?_ ?_ ?_
      · intro point executing
        rw [Point.makesCalls, executing, Bool.true_or]
      · exact fun other isExecutor => ⟨key, (executed other).mpr isExecutor⟩
      · rintro caller other ⟨otherKey, registrations, here, unset, executing⟩
        change Function.update calls.registry.point call _ caller = _ at here
        change (Function.update calls.registry.point call _ other).executes
          otherKey = true at executing
        change Function.update calls.registry.unregistered call false caller =
          false at unset
        have differ : other ≠ call := by
          rintro rfl
          rw [Function.update_self] at executing
          cases executing
        rw [Function.update_of_ne differ] at executing
        by_cases same : caller = call
        · subst same
          rw [Function.update_self] at here
          cases here
          exact Or.inr ⟨rfl, (executed other).mp executing⟩
        · rw [Function.update_of_ne same] at here unset
          exact Or.inl ⟨otherKey, registrations, here, unset, executing⟩
      · rintro above ⟨⟩ below isExecutor
        exact permitted below ((executed below).mpr isExecutor)
    · cases taken
  · cases taken

theorem handleServices (nested : Nested calls) {outer : Option CallId}
    (may : calls.mayCall Point.makesCalls outer = true)
    (next : Registry registry) (free : calls.registry.lock = none)
    (taken : calls.registry.handleServices call = some registry) :
    Nested (calls.enters outer call registry) := by
  unfold State.handleServices at taken
  split at taken
  · rename_i outside _
    cases taken
    refine nested.enters next none may (fun _ => id) outside rfl (by simp)
      (by simp) ?_ (by simp)
    intro caller other waits
    refine Or.inl (waits.of_move rfl rfl (fun key executes => ?_) id)
    cases executes
  · rename_i locked
    rw [free] at locked
    cases locked
  · cases taken

theorem step (nested : Nested calls) {next : Calls} {action : Calls.Action}
    (permitted : calls.Permitted action)
    (taken : calls.step action = some next) : Nested next := by
  have permits : PollingServices.Permitted calls.registry
      action.ofRegistry := by
    cases action with
    | register key => exact permitted
    | unregister | handleServices | finish | advance => rfl
  have registry := nested.registry.step permits (Calls.step_ofRegistry taken)
  cases action with
  | register key =>
      obtain ⟨after, registered, rfl⟩ := Option.map_eq_some_iff.mp taken
      have kept : after.point = calls.registry.point ∧
          after.unregistered = calls.registry.unregistered := by
        unfold State.register at registered
        repeat' split at registered
        · cases registered
          exact ⟨rfl, rfl⟩
        · cases registered
          exact ⟨rfl, rfl⟩
        · cases registered
        · cases registered
      refine ⟨registry, ?_, ?_, ?_⟩
      · rw [kept.1]
        exact nested.started
      · rw [kept.1]
        exact nested.makes
      · refine nested.ranked.mono fun caller other awaits => ?_
        unfold Calls.Awaits State.Waits at awaits ⊢
        rwa [kept.1, kept.2] at awaits
  | unregister outer call key =>
      simp only [Calls.step] at taken
      split at taken
      · rename_i may
        obtain ⟨after, marked, rfl⟩ := Option.map_eq_some_iff.mp taken
        exact nested.unregister permitted may registry marked
      · cases taken
  | handleServices outer call =>
      simp only [Calls.step] at taken
      split at taken
      · rename_i may
        obtain ⟨after, handled, rfl⟩ := Option.map_eq_some_iff.mp taken
        split at registry
        · rename_i free
          rw [if_pos free]
          exact nested.handleServices may registry
            (Option.isNone_iff_eq_none.mp free) handled
        · rename_i locked
          rw [if_neg locked]
          exact nested
      · cases taken
  | finish call unregister =>
      simp only [Calls.step] at taken
      split at taken
      · rename_i innermost
        obtain ⟨after, finished, rfl⟩ := Option.map_eq_some_iff.mp taken
        simp only [PollingServices.step] at finished
        split at finished
        · rename_i key here
          cases finished
          exact nested.goesOn registry (Option.isNone_iff_eq_none.mp innermost)
            rfl fun _ _ => waits_finish here
        · cases finished
      · cases taken
  | advance call =>
      simp only [Calls.step] at taken
      split at taken
      · rename_i innermost
        obtain ⟨after, advanced, rfl⟩ := Option.map_eq_some_iff.mp taken
        obtain ⟨point, updated⟩ := advance_point advanced
        exact nested.goesOn registry (Option.isNone_iff_eq_none.mp innermost)
          updated fun _ _ => waits_advance nested.registry.recorded advanced
      · cases taken

end Nested

/-! ## Progress -/

namespace Calls

theorem permitted_of_isHandling {calls : Calls} {action : Action}
    (handling : action.isHandling = true) : calls.Permitted action := by
  cases action with
  | register | unregister => cases handling
  | handleServices | finish | advance => trivial

theorem Handles.nested {calls next : Calls} (run : Handles calls next)
    (nested : Nested calls) : Nested next :=
  run.invariant nested fun _ _ _ known handling taken =>
    known.step (permitted_of_isHandling handling) taken

/-- A bound of the steps that the calls in progress still take. -/
def effort (calls : Calls) (bound : CallId) : Nat :=
  ∑ call ∈ Finset.range bound,
    (calls.registry.point call).effort calls.registry.services

/-- There are fewer entries, or no more entries and the calls are closer to their
ends. -/
def Nearer (bound : CallId) (calls next : Calls) : Prop :=
  next.registry.services.size < calls.registry.services.size ∨
    next.registry.services.size ≤ calls.registry.services.size ∧
      (∀ call, bound ≤ call → next.registry.point call = .outside) ∧
      next.effort bound < calls.effort bound

section Progress

variable {calls : Calls} {registry : State} {call bound : CallId}

theorem nearer_of_move
    (outside : ∀ call, bound ≤ call → calls.registry.point call = .outside)
    (busy : calls.registry.point call ≠ .outside) {point : Point}
    (updated : registry.point =
      Function.update calls.registry.point call point)
    (shrinks : Shrinks calls.registry.services registry.services)
    (less : (registry.point call).effort registry.services <
      (calls.registry.point call).effort calls.registry.services) :
    Nearer bound calls (calls.goesOn call registry) := by
  have below : call < bound := by
    by_contra above
    exact busy (outside call (not_lt.mp above))
  have others : ∀ other, other ≠ call →
      registry.point other = calls.registry.point other := by
    intro other differ
    rw [updated, Function.update_of_ne differ]
  refine Or.inr ⟨shrinks.size, fun other above => ?_, ?_⟩
  · exact (others other (lt_of_lt_of_le below above).ne').trans
      (outside other above)
  · refine Finset.sum_lt_sum (fun other _ => ?_)
      ⟨call, Finset.mem_range.mpr below, less⟩
    by_cases same : other = call
    · subst same
      exact less.le
    · change (registry.point other).effort registry.services ≤ _
      rw [others other same]
      exact Point.effort_le shrinks _

/-- A call that can go on comes closer to its end. -/
theorem nearer_advance (nested : Nested calls)
    (outside : ∀ call, bound ≤ call → calls.registry.point call = .outside)
    (innermost : calls.inner call = none)
    (taken : PollingServices.advance calls.registry call = some registry) :
    ∃ next, Handles calls next ∧ Nearer bound calls next := by
  obtain ⟨executor, invariant⟩ := nested.registry.invariant
  obtain ⟨point, updated⟩ := advance_point taken
  have busy : calls.registry.point call ≠ .outside := by
    intro here
    simp [PollingServices.advance, here] at taken
  have advanced : calls.step (.advance call) =
      some (calls.goesOn call registry) := by
    simp [step, innermost, taken]
  exact ⟨_, Run.single (.advance call) rfl advanced,
    nearer_of_move outside busy updated (advance_shrinks taken)
      (advance_effort invariant taken)⟩

/-- The function of a service returns. -/
theorem nearer_finish (nested : Nested calls)
    (outside : ∀ call, bound ≤ call → calls.registry.point call = .outside)
    (innermost : calls.inner call = none) {key : ServiceKey}
    (here : calls.registry.point call = .executing key) :
    ∃ next, Handles calls next ∧ Nearer bound calls next := by
  obtain ⟨executor, invariant⟩ := nested.registry.invariant
  have closer := calls.registry.services.remaining_next
    (invariant.traversals.valid call key (by rw [here]; rfl))
  have finished : calls.step (.finish call false) = some
      (calls.goesOn call (calls.registry.setPoint call
        (.returned key false))) := by
    simp [step, innermost, PollingServices.step, here]
  refine ⟨_, Run.single (.finish call false) rfl finished,
    nearer_of_move outside (by simp [here]) rfl (.refl _) ?_⟩
  simp only [here, State.setPoint, Function.update_self, Point.effort]
  omega

/-- A call with the lock makes no other call. -/
theorem innermost_of_hasLock (nested : Nested calls)
    (hasLock : (calls.registry.point call).hasLock = true) :
    calls.inner call = none := by
  refine Option.eq_none_iff_forall_ne_some.mpr fun inner made => ?_
  have makes := nested.makes call inner made
  cases here : calls.registry.point call with
  | outside | executing | returned | waiting =>
      rw [here] at hasLock
      cases hasLock
  | traversing | processed | signaling | erasing =>
      rw [here] at makes
      cases makes

theorem nearer_of_lock (nested : Nested calls)
    (outside : ∀ call, bound ≤ call → calls.registry.point call = .outside)
    (locked : calls.registry.lock = some call) :
    ∃ next, Handles calls next ∧ Nearer bound calls next := by
  obtain ⟨executor, invariant⟩ := nested.registry.invariant
  have hasLock := (invariant.traversals.locked call).mpr locked
  obtain ⟨registry, taken⟩ := advance_of_hasLock invariant hasLock
  exact nearer_advance nested outside (innermost_of_hasLock nested hasLock)
    taken

/-- What one call of the registry does, it also does among the other calls. -/
theorem handles_of_continues {target : State}
    (run : Continues call calls.registry target)
    (innermost : calls.inner call = none) :
    ∃ next, Handles calls next ∧ next.registry = target ∧
      next.inner call = none := by
  induction run with
  | refl => exact ⟨calls, .refl calls, rfl, innermost⟩
  | @tail middle last action before own taken inductionHypothesis =>
      obtain ⟨reached, handles, rfl, still⟩ := inductionHypothesis
      have stays : (reached.goesOn call last).inner call = none := by
        change (if _ then none else reached.inner call) = none
        rw [still, ite_self]
      cases action with
      | register | unregister | handleServices => cases own
      | finish other unregister =>
          obtain rfl : other = call := of_decide_eq_true own
          have moved : reached.step (.finish other unregister) =
              some (reached.goesOn other last) := by
            simp [step, still, taken]
          exact ⟨_, handles.trans (Run.single _ rfl moved), rfl, stays⟩
      | advance other =>
          obtain rfl : other = call := of_decide_eq_true own
          change PollingServices.advance reached.registry other = _ at taken
          have moved : reached.step (.advance other) =
              some (reached.goesOn other last) := by
            simp [step, still, taken]
          exact ⟨_, handles.trans (Run.single _ rfl moved), rfl, stays⟩

/-- With a free lock a new traversal removes a marked service that nobody
executes. -/
theorem nearer_of_free (nested : Nested calls)
    (outside : ∀ call, bound ≤ call → calls.registry.point call = .outside)
    (free : calls.registry.lock = none) {key : ServiceKey}
    {data : ServiceData}
    (found : calls.registry.services.lookup key = some data)
    (marked : data.discard.isSome = true) (idle : data.processing = false) :
    ∃ next, Handles calls next ∧ Nearer bound calls next := by
  obtain ⟨start, first, before⟩ := calls.registry.services.first_le
    (Option.isSome_iff_exists.mpr ⟨data, found⟩)
  have innermost : calls.inner bound = none := by
    refine Option.eq_none_iff_forall_ne_some.mpr fun inner made => ?_
    have makes := nested.makes bound inner made
    rw [outside bound le_rfl] at makes
    cases makes
  let started : State := calls.registry.goesOn bound (some bound)
    (.traversing (some start))
  have starts : calls.step (.handleServices none bound) =
      some (calls.enters none bound started) := by
    simp [step, mayCall, State.handleServices, outside bound le_rfl, free,
      first, started]
  have begun : Handles calls (calls.enters none bound started) :=
    Run.single (.handleServices none bound) rfl starts
  have traverses : started.point bound = .traversing (some start) :=
    Function.update_self ..
  obtain ⟨target, run, smaller⟩ := removes _ traverses
    (calls.registry.services.lookup_first first) before found marked idle
    (Nat.lt_succ_self _)
  have entered : Continues bound
      (calls.enters none bound started).registry target := run
  obtain ⟨next, handles, rfl, -⟩ := handles_of_continues entered innermost
  exact ⟨next, begun.trans handles, Or.inl smaller⟩

/-- Some call comes closer to its end: the one that is asked for, or one that it
waits for. -/
theorem exists_nearer (nested : Nested calls)
    (outside : ∀ call, bound ≤ call → calls.registry.point call = .outside)
    (busy : calls.registry.point call ≠ .outside) :
    ∃ next, Handles calls next ∧ Nearer bound calls next := by
  obtain ⟨executor, invariant⟩ := nested.registry.invariant
  obtain ⟨rank, lower⟩ := nested.ranked
  generalize level : rank call = height
  induction height using Nat.strong_induction_on generalizing call with
  | _ height inductionHypothesis =>
    subst level
    cases made : calls.inner call with
    | some inner =>
        exact inductionHypothesis _ (lower call inner (Or.inl made))
          (nested.started call inner made) rfl
    | none =>
      cases locked : calls.registry.lock with
      | some owner => exact nearer_of_lock nested outside locked
      | none =>
        have unlocked : ∀ {point}, calls.registry.point call = point →
            point.hasLock = false := by
          rintro point rfl
          refine Bool.eq_false_iff.mpr fun hasLock => ?_
          have owner := (invariant.traversals.locked call).mp hasLock
          rw [locked] at owner
          cases owner
        cases here : calls.registry.point call with
        | outside => exact absurd here busy
        | traversing | processed | signaling | erasing =>
            cases unlocked here
        | executing key => exact nearer_finish nested outside made here
        | returned key unregister =>
            have taken : PollingServices.advance calls.registry call =
                some (calls.registry.relock call key unregister) := by
              simp [PollingServices.advance, here, locked]
            exact nearer_advance nested outside made taken
        | waiting key registrations =>
            cases flag : calls.registry.unregistered call with
            | true =>
                have taken : PollingServices.advance calls.registry call =
                    some (calls.registry.returns call key registrations) := by
                  simp [PollingServices.advance, here, flag]
                exact nearer_advance nested outside made taken
            | false =>
                obtain ⟨data, found, marked⟩ := Option.map_eq_some_iff.mp
                  (nested.registry.recorded.waiting call key registrations
                    here flag)
                have owned := invariant.traversals.processing key
                rw [found, Option.any_some] at owned
                cases idle : data.processing with
                | false =>
                    exact nearer_of_free nested outside locked found
                      (by rw [marked]; rfl) idle
                | true =>
                    rw [idle] at owned
                    obtain ⟨party, isExecutor⟩ :=
                      Option.isSome_iff_exists.mp owned
                    have executes :=
                      (invariant.traversals.executes key party).mpr isExecutor
                    refine inductionHypothesis _ (lower call party (Or.inr
                      ⟨key, registrations, here, flag, executes⟩)) ?_ rfl
                    intro absent
                    rw [absent] at executes
                    cases executes

end Progress

/-! ## Pending unregistrations can be completed -/

variable {calls next : Calls} {call : CallId}

/-- A pending unregistration stays so until its flag is set. -/
theorem pending_step {action : Action} (handling : action.isHandling = true)
    (taken : calls.step action = some next) {key : ServiceKey}
    {registrations : Nat}
    (pending : calls.registry.unregistered call = true ∨
      calls.registry.point call = .waiting key registrations) :
    next.registry.unregistered call = true ∨
      next.registry.point call = .waiting key registrations := by
  -- Only a call whose flag is set leaves its wait.
  have moves : ∀ {registry : State} {moved : CallId} {point : Point},
      registry.point = Function.update calls.registry.point moved point →
      (calls.registry.unregistered call = true →
        registry.unregistered call = true) →
      (∀ count, calls.registry.point moved = .waiting key count →
        registry.unregistered moved = true) →
      registry.unregistered call = true ∨
        registry.point call = .waiting key registrations := by
    intro registry moved point updated flags leaves
    rcases pending with set | here
    · exact Or.inl (flags set)
    · by_cases same : call = moved
      · subst same
        exact Or.inl (leaves registrations here)
      · rw [updated, Function.update_of_ne same]
        exact Or.inr here
  have changes := step_ofRegistry taken
  generalize next.registry = registry at changes ⊢
  cases action with
  | register | unregister => cases handling
  | handleServices outer other =>
      simp only [Action.ofRegistry, PollingServices.step,
        State.handleServices] at changes
      split at changes
      · rename_i outside free
        cases changes
        refine moves rfl id fun count here => ?_
        rw [outside] at here
        cases here
      · cases changes
        exact pending
      · cases changes
  | finish other unregister =>
      simp only [Action.ofRegistry, PollingServices.step] at changes
      split at changes
      · rename_i key executing
        cases changes
        refine moves rfl id fun count here => ?_
        rw [executing] at here
        cases here
      · cases changes
  | advance other =>
      change PollingServices.advance calls.registry other = _ at changes
      obtain ⟨point, updated⟩ := advance_point changes
      refine moves updated (advance_unregistered changes) fun count here => ?_
      simp only [PollingServices.advance, here] at changes
      split at changes
      · rename_i flag
        cases changes
        exact flag
      · cases changes

theorem pending_of_handles (run : Handles calls next) {key : ServiceKey}
    {registrations : Nat}
    (pending : calls.registry.point call = .waiting key registrations) :
    next.registry.unregistered call = true ∨
      next.registry.point call = .waiting key registrations := by
  induction run with
  | refl => exact Or.inr pending
  | tail _ handling taken inductionHypothesis =>
      exact pending_step handling taken inductionHypothesis

/-- The calls come to their ends as long as a flag is missing. -/
theorem canComplete (nested : Nested calls) {key : ServiceKey}
    {registrations : Nat}
    (pending : calls.registry.point call = .waiting key registrations) :
    calls.CanComplete call := by
  obtain ⟨bound, outside⟩ := nested.registry.isFinite
  generalize entries : calls.registry.services.size = size
  generalize ends : calls.effort bound = effort
  induction size using Nat.strong_induction_on
    generalizing calls bound effort with
  | _ size fewer =>
    induction effort using Nat.strong_induction_on generalizing calls with
    | _ effort closer =>
      subst entries ends
      have busy : calls.registry.point call ≠ .outside := by simp [pending]
      obtain ⟨next, run, nearer⟩ := exists_nearer nested outside busy
      have later := run.nested nested
      obtain ⟨target, rest, set⟩ : next.CanComplete call := by
        rcases pending_of_handles run pending with set | still
        · exact ⟨next, .refl next, set⟩
        · rcases nearer with less | ⟨noMore, outsideNext, less⟩
          · obtain ⟨bound, outside⟩ := later.registry.isFinite
            exact fewer _ less later still bound outside rfl _ rfl
          · rcases noMore.lt_or_eq with less | same
            · exact fewer _ less later still bound outsideNext rfl _ rfl
            · exact closer _ less later still outsideNext same rfl
      exact ⟨target, run.trans rest, set⟩

end Calls

/-! ## Pending unregistrations stay signalable -/

/-- Unless a service is registered again while its unregistration is pending, or
a service function unregisters a service whose execution waits for it, every
unregistration can be completed. -/
theorem isSignalable_of_run {calls : Calls} {call : CallId}
    (run : Run Calls.step Calls.Permitted {} calls)
    (pending : (calls.registry.point call).isWaiting = true) :
    calls.IsSignalable call := by
  have nested : Nested calls :=
    run.invariant Nested.initial
      fun _ _ _ known permitted taken => known.step permitted taken
  have registry := nested.registry
  obtain ⟨key, registrations, waits⟩ : ∃ key registrations,
      calls.registry.point call = .waiting key registrations := by
    cases here : calls.registry.point call with
    | waiting key registrations => exact ⟨key, registrations, rfl⟩
    | outside | traversing | executing | returned | processed | signaling
    | erasing =>
        rw [here] at pending
        cases pending
  refine ⟨?_, Calls.canComplete nested waits⟩
  cases set : calls.registry.unregistered call with
  | true => exact Or.inl rfl
  | false =>
      right
      have recorded := registry.recorded.waiting call key registrations waits
        set
      obtain ⟨data, found, marked⟩ := Option.map_eq_some_iff.mp recorded
      refine ⟨key, ⟨data, found, marked⟩, ?_⟩
      rintro other ⟨otherData, otherFound, otherMarked⟩
      obtain ⟨executor, invariant⟩ := registry.invariant
      rcases invariant.requests.discard other otherData call otherFound
        otherMarked with here | ⟨eraser, erases⟩
      · rw [waits] at here
        cases here
        rfl
      · -- The flag of an entry that is removed has been set.
        have also : calls.registry.mark? other = some (some call) := by
          rw [State.mark?, otherFound, Option.map_some, otherMarked]
        rw [registry.recorded.erasing eraser other call erases also] at set
        cases set

/-- Nothing is unregistered by the function of a service. -/
def Calls.permitsOutside (calls : Calls) : Calls.Action → Bool
  | .register key => permits calls.registry (.register key)
  | .unregister outer _ _ => outer.isNone
  | _ => true

theorem Calls.permitted_of_permitsOutside {calls : Calls}
    {action : Calls.Action} (outside : calls.permitsOutside action = true) :
    calls.Permitted action := by
  cases action with
  | register key => exact outside
  | unregister outer call key =>
      obtain rfl := Option.isNone_iff_eq_none.mp outside
      trivial
  | handleServices | finish | advance => trivial

/-- A service is unregistered by call 2 while call 1 executes it.  Call 2 waits,
and makes the call 3 of `handleServices`. -/
def pendingUnregistration : List Calls.Action :=
  [.register (toLex (1, 0)), .handleServices none 1, .advance 1,
    .unregister none 2 (toLex (1, 0)), .handleServices (some 2) 3]

theorem isSignalable_pendingUnregistration :
    ∃ calls, Run Calls.step Calls.Permitted {} calls ∧
      calls.inner 2 = some 3 ∧ (calls.registry.point 2).isWaiting = true ∧
      calls.registry.unregistered 2 = false ∧ calls.IsSignalable 2 := by
  let waits (calls : Calls) : Bool :=
    decide (calls.inner 2 = some 3) && (calls.registry.point 2).isWaiting &&
      !calls.registry.unregistered 2
  obtain ⟨calls, outside, holds⟩ :
      ∃ calls, Run Calls.step
        (fun calls action => calls.permitsOutside action = true) {} calls ∧
          waits calls = true :=
    exists_run_of_executeAllowed pendingUnregistration {} waits (by decide)
  have run : Run Calls.step Calls.Permitted {} calls :=
    outside.mono fun _ _ => Calls.permitted_of_permitsOutside
  simp only [waits, Bool.and_eq_true, Bool.not_eq_true', decide_eq_true_eq]
    at holds
  obtain ⟨⟨inner, waiting⟩, unset⟩ := holds
  exact ⟨calls, run, inner, waiting, unset, isSignalable_of_run run waiting⟩

/-- Call 3 passes the service, which is then registered again before call 1
removes it. -/
theorem isSignalable_fails :
    ¬ ∀ (calls : Calls) (call : CallId),
      Run Calls.step (fun _ _ => True) {} calls →
        (calls.registry.point call).isWaiting = true →
          calls.IsSignalable call := by
  intro holds
  let lost (calls : Calls) : Bool :=
    (calls.registry.point 2).isWaiting && !calls.registry.unregistered 2 &&
      calls.registry.services.entries.all fun entry =>
        entry.2.discard.isNone
  obtain ⟨calls, run, wrong⟩ :
      ∃ calls, Run Calls.step (fun _ _ => True) {} calls ∧
        lost calls = true :=
    exists_run_of_executeAllowed
      (pendingUnregistration ++
        [.advance 3, .advance 3, .register (toLex (1, 0))]) {} lost
      (by decide)
  simp only [lost, Bool.and_eq_true, Bool.not_eq_true',
    List.all_eq_true] at wrong
  obtain ⟨⟨waits, unset⟩, unmarked⟩ := wrong
  rcases (holds calls 2 run waits).recorded with set | ⟨key, ⟨data, found,
    marked⟩, -⟩
  · rw [unset] at set
    cases set
  · have member := OrderedMap.mem_of_lookup found
    have free := unmarked _ member
    rw [marked] at free
    cases free

end Nanos6.PollingServices
