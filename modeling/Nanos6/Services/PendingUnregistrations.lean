import Nanos6.Services.PollingServices

/-!
# Unregistrations that wait

A call of `nanos6_unregister_polling_service` that has set up its request waits
until its flag is set.  The only record of the request is the address of the flag
in the entry of the service.  It stays there until somebody sets the flag, unless
the service is registered again meanwhile: then the mark is removed, and nobody is
left who would set the flag.
-/

namespace Nanos6.PollingServices

open Foundation

/-- No registration finds its service marked for removal. -/
def permits (state : State) : Action → Bool
  | .register key =>
      (state.services.lookup key).all fun data => data.discard.isNone
  | _ => true

def Permitted (state : State) (action : Action) : Prop :=
  permits state action = true

instance (state : State) (action : Action) :
    Decidable (Permitted state action) :=
  inferInstanceAs (Decidable (permits state action = true))

/-! ## Steps by what they do to the requests -/

theorem State.SameRequests.refl (state : State) : state.SameRequests state :=
  ⟨fun _ _ _ => Iff.rfl, fun _ _ => Iff.rfl, fun _ => rfl, rfl, rfl, rfl⟩

/-- A step that concerns a request. -/
inductive RequestStep (state : State) (action : Action) : State → Prop
  | register {next : State} (key : ServiceKey)
      (is : action = .register key)
      (taken : state.register key = some next) :
      RequestStep state action next
  | unregister {next : State} (call : CallId) (key : ServiceKey)
      (taken : state.unregister call key = some next) :
      RequestStep state action next
  | signal (call : CallId) (key : ServiceKey) (data : ServiceData)
      (here : state.point call = .signaling key)
      (found : state.services.lookup key = some data) :
      RequestStep state action (state.signal call key data)
  | erase (call : CallId) (key : ServiceKey)
      (here : state.point call = .erasing key) :
      RequestStep state action (state.eraseService call key)
  | returns (call : CallId) (key : ServiceKey) (registrations : Nat)
      (here : state.point call = .waiting key registrations)
      (flag : state.unregistered call = true) :
      RequestStep state action (state.returns call key registrations)

theorem visit_sameRequests {state : State} {call : CallId}
    {key : ServiceKey} {data : ServiceData}
    (here : state.point call = .traversing (some key)) :
    state.SameRequests (state.visit call key data) := by
  unfold State.visit
  split
  · exact .of_move here rfl (by simp) (fun _ => rfl) rfl rfl rfl
  · split
    · exact .of_move here rfl (by simp) (fun _ => rfl) rfl rfl rfl
    · exact .of_move here rfl (by simp)
        (Invariant.discard_setProcessing state.services key _) rfl rfl rfl

theorem advance_cases {state next : State} {call : CallId}
    (taken : advance state call = some next) (action : Action) :
    state.SameRequests next ∨ RequestStep state action next := by
  unfold advance at taken
  split at taken
  · cases taken
  · rename_i here
    cases taken
    exact Or.inl (.of_move here rfl (by simp) (fun _ => rfl) rfl rfl rfl)
  · rename_i key here
    obtain ⟨data, -, rfl⟩ := Option.map_eq_some_iff.mp taken
    exact Or.inl (visit_sameRequests here)
  · cases taken
  · rename_i key unregister here
    split at taken
    · cases taken
      exact Or.inl (.of_move here rfl (by simp)
        (Invariant.discard_setProcessing state.services key _) rfl rfl rfl)
    · cases taken
  · rename_i key unregister here
    obtain ⟨data, -, rfl⟩ := Option.map_eq_some_iff.mp taken
    left
    split
    · exact .of_move here rfl (by simp) (fun _ => rfl) rfl rfl rfl
    · exact .of_move here rfl (by simp) (fun _ => rfl) rfl rfl rfl
  · rename_i key here
    obtain ⟨data, found, rfl⟩ := Option.map_eq_some_iff.mp taken
    exact Or.inr (.signal call key data here found)
  · rename_i key here
    cases taken
    exact Or.inr (.erase call key here)
  · rename_i key registrations here
    split at taken
    · rename_i flag
      cases taken
      exact Or.inr (.returns call key registrations here flag)
    · cases taken

theorem step_cases {state next : State} {action : Action}
    (taken : step state action = some next) :
    state.SameRequests next ∨ RequestStep state action next := by
  cases action with
  | register key => exact Or.inr (.register key rfl taken)
  | unregister call key => exact Or.inr (.unregister call key taken)
  | handleServices call =>
      simp only [step, State.handleServices] at taken
      split at taken
      · rename_i here free
        cases taken
        exact Or.inl (.of_move here rfl (by simp) (fun _ => rfl) rfl rfl rfl)
      · cases taken
        exact Or.inl (.refl state)
      · cases taken
  | finish call unregister =>
      simp only [step] at taken
      split at taken
      · rename_i key here
        cases taken
        exact Or.inl (.of_move here rfl (by simp) (fun _ => rfl) rfl rfl rfl)
      · cases taken
  | advance call => exact advance_cases taken _

/-! ## The record of a request -/

/-- The address that the entry holds, if there is an entry. -/
def State.mark? (state : State) (key : ServiceKey) :
    Option (Option CallId) :=
  (state.services.lookup key).map ServiceData.discard

/-- A flag that is set stays so. -/
theorem signal_unregistered {state : State} {call request : CallId}
    {key : ServiceKey} {data : ServiceData}
    (set : state.unregistered request = true) :
    (state.signal call key data).unregistered request = true := by
  unfold State.signal
  cases data.discard with
  | none => exact set
  | some other =>
      by_cases same : request = other
      · subst same
        exact Function.update_self ..
      · exact (Function.update_of_ne same ..).trans set

structure Recorded (state : State) : Prop where
  /-- The entry of the service has the address of a flag that is not set. -/
  waiting : ∀ call key registrations,
    state.point call = .waiting key registrations →
      state.unregistered call = false → state.mark? key = some (some call)
  /-- The flag has been set when the entry is removed. -/
  erasing : ∀ eraser key request, state.point eraser = .erasing key →
    state.mark? key = some (some request) →
      state.unregistered request = true

namespace Recorded

variable {state next : State} {executor : ServiceKey → Option CallId}

theorem initial : Recorded {} where
  waiting := by simp
  erasing := by simp

theorem sameRequests (recorded : Recorded state)
    (same : state.SameRequests next) : Recorded next where
  waiting := by
    intro call key registrations here unset
    rw [same.waiting] at here
    rw [same.unregistered] at unset
    exact (same.discard key).trans
      (recorded.waiting call key registrations here unset)
  erasing := by
    intro eraser key request here marked
    rw [same.erasing] at here
    rw [same.unregistered]
    exact recorded.erasing eraser key request here
      ((same.discard key).symm.trans marked)

theorem register (recorded : Recorded state)
    (invariant : Invariant state executor) {key : ServiceKey}
    (permitted : Permitted state (.register key))
    (taken : state.register key = some next) : Recorded next := by
  unfold State.register at taken
  split at taken
  · rename_i free missing
    cases taken
    constructor
    · intro call other registrations here unset
      have marked := recorded.waiting call other registrations here unset
      have differ : other ≠ key := by
        rintro rfl
        rw [State.mark?, missing] at marked
        cases marked
      unfold State.mark? at marked ⊢
      rw [OrderedMap.lookup_insert, if_neg differ]
      exact marked
    · intro eraser other request here
      exact absurd ⟨eraser, here⟩ (invariant.not_erasing_of_free free)
  · rename_i data free found
    split at taken
    · rename_i marked
      simp only [Permitted, permits, found, Option.all_some] at permitted
      rw [← Option.not_isSome, marked] at permitted
      cases permitted
    · cases taken
  · cases taken

theorem unregister (recorded : Recorded state)
    (invariant : Invariant state executor) {call : CallId}
    {key : ServiceKey} (taken : state.unregister call key = some next) :
    Recorded next := by
  unfold State.unregister at taken
  split at taken
  · rename_i data free found here
    split at taken
    · rename_i unmarked
      cases taken
      constructor
      · intro other otherKey registrations waits unset
        change Function.update state.point call _ other = _ at waits
        change Function.update state.unregistered call false other = false
          at unset
        unfold State.mark? State.mark
        rw [OrderedMap.lookup_modify, found]
        by_cases same : other = call
        · subst same
          rw [Function.update_self] at waits
          cases waits
          rw [if_pos rfl]
          rfl
        · rw [Function.update_of_ne same] at waits unset
          have marked :=
            recorded.waiting other otherKey registrations waits unset
          have differ : otherKey ≠ key := by
            rintro rfl
            rw [State.mark?, found, Option.map_some, Option.some.injEq]
              at marked
            rw [marked] at unmarked
            cases unmarked
          rw [if_neg differ]
          exact marked
      · intro eraser other request erases
        exact absurd ⟨eraser, (Point.of_update erases (by simp)).2⟩
          (invariant.not_erasing_of_free free)
    · cases taken
  · cases taken

theorem signal (recorded : Recorded state)
    (invariant : Invariant state executor) {call : CallId}
    {key : ServiceKey} {data : ServiceData}
    (here : state.point call = .signaling key)
    (found : state.services.lookup key = some data) :
    Recorded (state.signal call key data) := by
  constructor
  · intro other otherKey registrations waits unset
    have before : state.unregistered other = false := by
      refine Bool.eq_false_iff.mpr fun set => ?_
      rw [signal_unregistered set] at unset
      cases unset
    exact recorded.waiting other otherKey registrations
      (Point.of_update waits (by simp)).2 before
  · intro eraser other request erases marked
    change Function.update state.point call _ eraser = _ at erases
    by_cases same : eraser = call
    · subst same
      rw [Function.update_self] at erases
      cases erases
      have pointer : data.discard = some request := by
        change (state.services.lookup key).map ServiceData.discard = _
          at marked
        rw [found] at marked
        exact Option.some.inj marked
      unfold State.signal
      rw [pointer]
      exact Function.update_self ..
    · rw [Function.update_of_ne same] at erases
      have alone : eraser = call := invariant.traversals.locked.unique
        (by rw [erases]; rfl) (by rw [here]; rfl)
      exact absurd alone same

theorem erase (recorded : Recorded state)
    (invariant : Invariant state executor) {call : CallId}
    {key : ServiceKey} (here : state.point call = .erasing key) :
    Recorded (state.eraseService call key) := by
  constructor
  · intro other otherKey registrations waits unset
    change state.unregistered other = false at unset
    have marked := recorded.waiting other otherKey registrations
      (Point.of_update waits (by simp)).2 unset
    have differ : otherKey ≠ key := by
      rintro rfl
      rw [recorded.erasing call otherKey other here marked] at unset
      cases unset
    change ((state.services.erase key).lookup otherKey).map _ = _
    rw [OrderedMap.lookup_erase, if_neg differ]
    exact marked
  · intro eraser other request erases
    obtain ⟨differ, before⟩ := Point.of_update erases (by simp)
    have alone : eraser = call := invariant.traversals.locked.unique
      (by rw [before]; rfl) (by rw [here]; rfl)
    exact absurd alone differ

theorem returns (recorded : Recorded state) {call : CallId}
    {key : ServiceKey} {registrations : Nat} :
    Recorded (state.returns call key registrations) := by
  constructor
  · intro other otherKey count waits unset
    exact recorded.waiting other otherKey count
      (Point.of_update waits (by simp)).2 unset
  · intro eraser other request erases marked
    exact recorded.erasing eraser other request
      (Point.of_update erases (by simp)).2 marked

theorem step (recorded : Recorded state)
    (invariant : Invariant state executor) {action : Action}
    (permitted : Permitted state action)
    (taken : step state action = some next) : Recorded next := by
  rcases step_cases taken with same | request
  · exact recorded.sameRequests same
  · cases request with
    | register key is taken =>
        rw [is] at permitted
        exact recorded.register invariant permitted taken
    | unregister call key taken => exact recorded.unregister invariant taken
    | signal call key data here found =>
        exact recorded.signal invariant here found
    | erase call key here => exact recorded.erase invariant here
    | returns call key registrations => exact recorded.returns

end Recorded

/-! ## How far a call has come -/

/-- No entries are added. -/
structure Shrinks (before after : Services) : Prop where
  size : after.size ≤ before.size
  remaining : ∀ position, after.remaining position ≤ before.remaining position

namespace Shrinks

theorem refl (services : Services) : Shrinks services services :=
  ⟨Nat.le_refl _, fun _ => Nat.le_refl _⟩

theorem modify (services : Services) (key : ServiceKey)
    (change : ServiceData → ServiceData) :
    Shrinks services (services.modify key change) :=
  ⟨(services.size_modify key change).le,
    fun position => (services.remaining_modify key change position).le⟩

theorem erase (services : Services) (key : ServiceKey) :
    Shrinks services (services.erase key) :=
  ⟨services.size_erase_le key, services.remaining_erase key⟩

end Shrinks

/-- A bound of the steps that a call still takes. -/
def Point.effort (services : Services) : Point → Nat
  | .outside => 0
  | .traversing iterator => 6 * services.remaining iterator + 1
  | .executing key => 6 * services.remaining (some key)
  | .returned key _ => 6 * services.remaining (some key) - 1
  | .processed key _ => 6 * services.remaining (some key) - 2
  | .signaling key => 6 * services.remaining (some key) - 3
  | .erasing key => 6 * services.remaining (some key) - 4
  | .waiting _ _ => 1

theorem Point.effort_le {before after : Services}
    (shrinks : Shrinks before after) (point : Point) :
    point.effort after ≤ point.effort before := by
  cases point with
  | outside | waiting => exact Nat.le_refl _
  | traversing iterator =>
      have fewer := shrinks.remaining iterator
      simp only [Point.effort]
      omega
  | executing key | returned key | processed key | signaling key
  | erasing key =>
      have fewer := shrinks.remaining (some key)
      simp only [Point.effort]
      omega

section Progress

variable {state : State} {executor : ServiceKey → Option CallId}
  {call : CallId}

theorem advance_visit {key : ServiceKey} {data : ServiceData}
    (here : state.point call = .traversing (some key))
    (found : state.services.lookup key = some data) :
    advance state call = some (state.visit call key data) := by
  simp [advance, here, found]

theorem advance_processed {key : ServiceKey} {unregister : Bool}
    {data : ServiceData} (here : state.point call = .processed key unregister)
    (found : state.services.lookup key = some data) :
    advance state call = some (state.setPoint call
      (if unregister || data.discard.isSome then .signaling key
      else .traversing (state.services.next key))) := by
  simp [advance, here, found]

theorem advance_signal {key : ServiceKey} {data : ServiceData}
    (here : state.point call = .signaling key)
    (found : state.services.lookup key = some data) :
    advance state call = some (state.signal call key data) := by
  simp [advance, here, found]

theorem visit_shrinks (state : State) (call : CallId) (key : ServiceKey)
    (data : ServiceData) :
    Shrinks state.services (state.visit call key data).services := by
  unfold State.visit
  split
  · exact .refl _
  · split
    · exact .refl _
    · exact .modify state.services key fun data =>
        { data with processing := true }

theorem advance_shrinks {next : State}
    (taken : advance state call = some next) :
    Shrinks state.services next.services := by
  unfold advance at taken
  split at taken
  · cases taken
  · cases taken
    exact .refl _
  · obtain ⟨data, -, rfl⟩ := Option.map_eq_some_iff.mp taken
    exact visit_shrinks ..
  · cases taken
  · rename_i key unregister here
    split at taken
    · cases taken
      exact .modify state.services key fun data =>
        { data with processing := false }
    · cases taken
  · obtain ⟨data, -, rfl⟩ := Option.map_eq_some_iff.mp taken
    exact .refl _
  · obtain ⟨data, -, rfl⟩ := Option.map_eq_some_iff.mp taken
    exact .refl _
  · cases taken
    exact .erase ..
  · split at taken
    · cases taken
      exact .refl _
    · cases taken

/-- A call that goes on comes closer to its end. -/
theorem advance_effort (invariant : Invariant state executor) {next : State}
    (taken : advance state call = some next) :
    (next.point call).effort next.services <
      (state.point call).effort state.services := by
  have closer : ∀ key, (state.point call).iterator = some key →
      state.services.remaining (state.services.next key) <
        state.services.remaining (some key) := fun key refers =>
    state.services.remaining_next
      (invariant.traversals.valid call key refers)
  unfold advance at taken
  split at taken
  · cases taken
  · rename_i here
    cases taken
    simp [here, State.goesOn, State.setPoint, Point.effort]
  · rename_i key here
    have nearer := closer key (by rw [here]; rfl)
    obtain ⟨data, found, rfl⟩ := Option.map_eq_some_iff.mp taken
    rw [here]
    unfold State.visit
    split
    · simp only [State.setPoint, Function.update_self, Point.effort]
      omega
    · split
      · simp only [State.setPoint, Function.update_self, Point.effort]
        omega
      · simp only [State.modifyService, State.goesOn, State.setPoint,
          Function.update_self, Point.effort, OrderedMap.remaining_modify]
        omega
  · cases taken
  · rename_i key unregister here
    have nearer := closer key (by rw [here]; rfl)
    split at taken
    · cases taken
      simp only [here, State.relock, State.modifyService, State.goesOn,
        State.setPoint, Function.update_self, Point.effort,
        OrderedMap.remaining_modify]
      omega
    · cases taken
  · rename_i key unregister here
    have nearer := closer key (by rw [here]; rfl)
    obtain ⟨data, found, rfl⟩ := Option.map_eq_some_iff.mp taken
    rw [here]
    simp only [State.setPoint, Function.update_self]
    split
    · simp only [Point.effort]
      omega
    · simp only [Point.effort]
      omega
  · rename_i key here
    have nearer := closer key (by rw [here]; rfl)
    obtain ⟨data, found, rfl⟩ := Option.map_eq_some_iff.mp taken
    simp only [here, State.signal, State.setPoint, Function.update_self,
      Point.effort]
    omega
  · rename_i key here
    have nearer := closer key (by rw [here]; rfl)
    have fewer := state.services.remaining_erase key (state.services.next key)
    cases taken
    simp only [here, State.eraseService, State.setPoint, Function.update_self,
      Point.effort]
    omega
  · rename_i key registrations here
    split at taken
    · cases taken
      simp [here, State.returns, State.setPoint, Point.effort]
    · cases taken

/-- A call with the lock can go on. -/
theorem advance_of_hasLock (invariant : Invariant state executor)
    (hasLock : (state.point call).hasLock = true) :
    ∃ next, advance state call = some next := by
  have valid := invariant.traversals.valid call
  have present : ∀ key, (state.point call).iterator = some key →
      ∃ data, state.services.lookup key = some data := fun key refers =>
    Option.isSome_iff_exists.mp (valid key refers)
  cases here : state.point call with
  | outside | executing | returned | waiting =>
      rw [here] at hasLock
      cases hasLock
  | traversing iterator =>
      cases iterator with
      | none =>
          exact ⟨state.goesOn call none .outside, by simp only [advance, here]⟩
      | some key =>
          obtain ⟨data, found⟩ := present key (by rw [here]; rfl)
          exact ⟨_, advance_visit here found⟩
  | processed key unregister =>
      obtain ⟨data, found⟩ := present key (by rw [here]; rfl)
      exact ⟨_, advance_processed here found⟩
  | signaling key =>
      obtain ⟨data, found⟩ := present key (by rw [here]; rfl)
      exact ⟨_, advance_signal here found⟩
  | erasing key =>
      exact ⟨state.eraseService call key, by simp only [advance, here]⟩

/-! ## A traversal removes a marked service -/

/-- The step belongs to the call. -/
def Action.isOf (call : CallId) : Action → Bool
  | .finish other _ | .advance other => decide (other = call)
  | _ => false

/-- Runs in which nothing but one call goes on. -/
abbrev Continues (call : CallId) : State → State → Prop :=
  Run step fun _ action => action.isOf call = true

theorem Continues.step {next target : State} (action : Action)
    (own : action.isOf call = true)
    (taken : step state action = some next)
    (rest : Continues call next target) : Continues call state target := by
  have first : Continues call state next := Run.single action own taken
  exact first.trans rest

/-- The call executes the service. -/
def State.executing (state : State) (call : CallId) (key : ServiceKey) :
    State :=
  (state.modifyService key fun data =>
    { data with processing := true }).goesOn call none (.executing key)

/-- The call has executed the service, which does not ask to be unregistered,
and has the lock again. -/
def State.executed (state : State) (call : CallId) (key : ServiceKey) :
    State :=
  ((state.executing call key).setPoint call (.returned key false)).relock call
    key false

theorem size_le {target : State} (run : Continues call state target) :
    target.services.size ≤ state.services.size := by
  induction run with
  | refl => exact Nat.le_refl _
  | tail _ own taken inductionHypothesis =>
      rename_i middle _ action _
      cases action with
      | register | unregister | handleServices => cases own
      | advance other =>
          exact (advance_shrinks taken).size.trans inductionHypothesis
      | finish other unregister =>
          simp only [PollingServices.step] at taken
          split at taken
          · cases taken
            exact inductionHypothesis
          · cases taken

theorem lookup_executed (call : CallId) {key : ServiceKey}
    {data : ServiceData} (found : state.services.lookup key = some data)
    (other : ServiceKey) :
    (state.executed call key).services.lookup other =
      if other = key then some { data with processing := false }
      else state.services.lookup other := by
  simp only [State.executed, State.executing, State.relock, State.goesOn,
    State.setPoint, State.modifyService, OrderedMap.lookup_modify, found]
  split
  · rfl
  · rfl

/-- A call executes a service that nobody has marked, and goes on. -/
theorem continues_executed {key : ServiceKey} {data : ServiceData}
    (here : state.point call = .traversing (some key))
    (found : state.services.lookup key = some data)
    (idle : data.processing = false) (unmarked : data.discard = none) :
    Continues call state ((state.executed call key).setPoint call
      (.traversing ((state.executed call key).services.next key))) := by
  have visited := advance_visit here found
  rw [State.visit, if_neg (by simp [idle]), if_neg (by simp [unmarked])]
    at visited
  have finished : step (state.executing call key) (.finish call false) =
      some ((state.executing call key).setPoint call
        (.returned key false)) := by
    simp [step, State.executing, State.goesOn, State.setPoint]
  have relocked : advance ((state.executing call key).setPoint call
      (.returned key false)) call = some (state.executed call key) := by
    simp [advance, State.executing, State.goesOn, State.setPoint,
      State.executed]
  have current := lookup_executed call found key
  rw [if_pos rfl] at current
  have isProcessed : (state.executed call key).point call =
      .processed key false := Function.update_self ..
  have processed := advance_processed isProcessed current
  rw [unmarked] at processed
  exact .step (.advance call) (decide_eq_true rfl) visited
    (.step (.finish call false) (decide_eq_true rfl) finished
      (.step (.advance call) (decide_eq_true rfl) relocked
        (.step (.advance call) (decide_eq_true rfl) processed (.refl _))))

/-- A call removes a marked service, and goes on. -/
theorem continues_removed {key : ServiceKey} {data : ServiceData}
    (here : state.point call = .traversing (some key))
    (found : state.services.lookup key = some data)
    (idle : data.processing = false) (marked : data.discard.isSome = true) :
    Continues call state
      (((state.setPoint call (.signaling key)).signal call key
        data).eraseService call key) := by
  have visited := advance_visit here found
  rw [State.visit, if_neg (by simp [idle]), if_pos marked] at visited
  have isSignaling : (state.setPoint call (.signaling key)).point call =
      .signaling key := Function.update_self ..
  have signaled := advance_signal isSignaling found
  have erased : advance
      ((state.setPoint call (.signaling key)).signal call key data) call =
      some (((state.setPoint call (.signaling key)).signal call key
        data).eraseService call key) := by
    simp [advance, State.signal, State.setPoint]
  exact .step (.advance call) (decide_eq_true rfl) visited
    (.step (.advance call) (decide_eq_true rfl) signaled
      (.step (.advance call) (decide_eq_true rfl) erased (.refl _)))

/-- A traversal comes to the next entry, and leaves a later one as it is. -/
theorem passes {position key : ServiceKey} {data : ServiceData}
    (here : state.point call = .traversing (some position))
    (there : (state.services.lookup position).isSome = true)
    (before : position < key)
    (found : state.services.lookup key = some data) :
    ∃ next following, Continues call state next ∧
      next.point call = .traversing (some following) ∧
      (next.services.lookup following).isSome = true ∧ following ≤ key ∧
      next.services.lookup key = some data ∧
      next.services.remaining (some following) <
        state.services.remaining (some position) := by
  obtain ⟨current, present⟩ := Option.isSome_iff_exists.mp there
  have closer := state.services.remaining_next there
  have differ : key ≠ position := ne_of_gt before
  obtain ⟨following, after, upTo⟩ := state.services.next_le
    (Option.isSome_iff_exists.mpr ⟨data, found⟩) before
  rw [after] at closer
  cases busy : current.processing with
  | true =>
      have visited := advance_visit here present
      rw [State.visit, if_pos busy, after] at visited
      exact ⟨_, following, .step (.advance call) (decide_eq_true rfl) visited (.refl _),
        Function.update_self .., state.services.lookup_next after, upTo,
        found, closer⟩
  | false =>
      cases marked : current.discard.isSome with
      | true =>
          refine ⟨_, following,
            continues_removed here present busy marked, ?_, ?_, upTo, ?_, ?_⟩
          · refine (Function.update_self ..).trans ?_
            exact congrArg Point.traversing after
          · change ((state.services.erase position).lookup
              following).isSome = true
            rw [OrderedMap.lookup_erase,
              if_neg (state.services.next_ne after)]
            exact state.services.lookup_next after
          · change (state.services.erase position).lookup key = _
            rw [OrderedMap.lookup_erase, if_neg differ]
            exact found
          · exact lt_of_le_of_lt
              (state.services.remaining_erase position (some following))
              closer
      | false =>
          have unmarked : current.discard = none := by
            rwa [← Option.not_isSome_iff_eq_none, Bool.not_eq_true]
          have lookup := lookup_executed call present
          have kept : (state.executed call position).services.lookup key =
              some data := by
            rw [lookup, if_neg differ, found]
          have remaining : ∀ start,
              (state.executed call position).services.remaining start =
                state.services.remaining start := by
            intro start
            exact (OrderedMap.remaining_modify ..).trans
              (OrderedMap.remaining_modify ..)
          have stillThere : ((state.executed call position).services.lookup
              position).isSome = true := by
            rw [lookup, if_pos rfl]
            rfl
          have later := (state.executed call
            position).services.remaining_next stillThere
          obtain ⟨start, toStart, upToKey⟩ :=
            (state.executed call position).services.next_le
              (Option.isSome_iff_exists.mpr ⟨data, kept⟩) before
          rw [toStart, remaining, remaining] at later
          refine ⟨_, start, continues_executed here present busy unmarked, ?_,
            ?_, upToKey, kept, ?_⟩
          · refine (Function.update_self ..).trans ?_
            exact congrArg Point.traversing toStart
          · exact (state.executed call position).services.lookup_next toStart
          · exact (remaining _).trans_lt later

/-- A traversal that has not passed the entry removes it. -/
theorem removes (bound : Nat) {state : State} {position key : ServiceKey}
    {data : ServiceData}
    (here : state.point call = .traversing (some position))
    (there : (state.services.lookup position).isSome = true)
    (before : position ≤ key)
    (found : state.services.lookup key = some data)
    (marked : data.discard.isSome = true) (idle : data.processing = false)
    (within : state.services.remaining (some position) < bound) :
    ∃ target, Continues call state target ∧
      target.services.size < state.services.size := by
  induction bound generalizing state position with
  | zero => exact absurd within (Nat.not_lt_zero _)
  | succ bound inductionHypothesis =>
      rcases lt_or_eq_of_le before with earlier | rfl
      · obtain ⟨next, following, run, point, present, upTo, kept, closer⟩ :=
          passes here there earlier found
        obtain ⟨target, rest, smaller⟩ :=
          inductionHypothesis point present upTo kept (by omega)
        exact ⟨target, run.trans rest, smaller.trans_le (size_le run)⟩
      · exact ⟨_, continues_removed here found idle marked,
          state.services.size_erase_lt there⟩

end Progress

/-! ## Some call is not in progress -/

/-- Only finitely many calls are in progress. -/
def State.IsFinite (state : State) : Prop :=
  ∃ bound, ∀ call, bound ≤ call → state.point call = .outside

theorem visit_point (state : State) (call : CallId) (key : ServiceKey)
    (data : ServiceData) :
    ∃ point, (state.visit call key data).point =
      Function.update state.point call point := by
  unfold State.visit
  split
  · exact ⟨_, rfl⟩
  · split
    · exact ⟨_, rfl⟩
    · exact ⟨_, rfl⟩

theorem advance_point {state next : State} {call : CallId}
    (taken : advance state call = some next) :
    ∃ point, next.point = Function.update state.point call point := by
  unfold advance at taken
  split at taken
  · cases taken
  · cases taken
    exact ⟨_, rfl⟩
  · obtain ⟨data, -, rfl⟩ := Option.map_eq_some_iff.mp taken
    exact visit_point ..
  · cases taken
  · split at taken
    · cases taken
      exact ⟨_, rfl⟩
    · cases taken
  · obtain ⟨data, -, rfl⟩ := Option.map_eq_some_iff.mp taken
    exact ⟨_, rfl⟩
  · obtain ⟨data, -, rfl⟩ := Option.map_eq_some_iff.mp taken
    exact ⟨_, rfl⟩
  · cases taken
    exact ⟨_, rfl⟩
  · split at taken
    · cases taken
      exact ⟨_, rfl⟩
    · cases taken

theorem advance_unregistered {state next : State} {call request : CallId}
    (taken : advance state call = some next)
    (set : state.unregistered request = true) :
    next.unregistered request = true := by
  unfold advance at taken
  split at taken
  · cases taken
  · cases taken
    exact set
  · obtain ⟨data, -, rfl⟩ := Option.map_eq_some_iff.mp taken
    unfold State.visit
    repeat' split
    all_goals exact set
  · cases taken
  · split at taken
    · cases taken
      exact set
    · cases taken
  · obtain ⟨data, -, rfl⟩ := Option.map_eq_some_iff.mp taken
    exact set
  · obtain ⟨data, -, rfl⟩ := Option.map_eq_some_iff.mp taken
    exact signal_unregistered set
  · cases taken
    exact set
  · split at taken
    · cases taken
      exact set
    · cases taken

/-- A step moves at most one call. -/
theorem step_point {state next : State} {action : Action}
    (taken : step state action = some next) :
    next.point = state.point ∨
      ∃ call point, next.point = Function.update state.point call point := by
  cases action with
  | register key =>
      simp only [step, State.register] at taken
      split at taken
      · cases taken
        exact Or.inl rfl
      · split at taken
        · cases taken
          exact Or.inl rfl
        · cases taken
      · cases taken
  | unregister call key =>
      simp only [step, State.unregister] at taken
      split at taken
      · split at taken
        · cases taken
          exact Or.inr ⟨call, _, rfl⟩
        · cases taken
      · cases taken
  | handleServices call =>
      simp only [step, State.handleServices] at taken
      split at taken
      · cases taken
        exact Or.inr ⟨call, _, rfl⟩
      · cases taken
        exact Or.inl rfl
      · cases taken
  | finish call unregister =>
      simp only [step] at taken
      split at taken
      · cases taken
        exact Or.inr ⟨call, _, rfl⟩
      · cases taken
  | advance call => exact Or.inr ⟨call, advance_point taken⟩

theorem State.IsFinite.step {state next : State} {action : Action}
    (isFinite : state.IsFinite) (taken : step state action = some next) :
    next.IsFinite := by
  obtain ⟨bound, outside⟩ := isFinite
  rcases step_point taken with same | ⟨call, point, updated⟩
  · exact ⟨bound, fun other above => by rw [same, outside other above]⟩
  · refine ⟨bound + (call + 1), fun other above => ?_⟩
    have differ : other ≠ call := by
      rintro rfl
      exact absurd (le_trans (Nat.le_add_left ..) above)
        (Nat.not_succ_le_self _)
    rw [updated, Function.update_of_ne differ]
    exact outside other (le_trans (Nat.le_add_right ..) above)

/-! ## Pending unregistrations stay signalable -/

/-- What holds in every state that is reached. -/
structure Registry (state : State) : Prop where
  invariant : ∃ executor, Invariant state executor
  recorded : Recorded state
  isFinite : state.IsFinite

namespace Registry

variable {state next : State} {call : CallId}

theorem initial : Registry {} where
  invariant := ⟨_, Invariant.initial⟩
  recorded := Recorded.initial
  isFinite := ⟨0, fun _ _ => rfl⟩

theorem step (registry : Registry state) {action : Action}
    (permitted : Permitted state action)
    (taken : step state action = some next) : Registry next := by
  obtain ⟨executor, invariant⟩ := registry.invariant
  exact
    { invariant := invariant.step taken
      recorded := registry.recorded.step invariant permitted taken
      isFinite := registry.isFinite.step taken }

end Registry

end Nanos6.PollingServices
