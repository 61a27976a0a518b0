import Mathlib.Data.Fintype.Card
import Mathlib.Data.Int.ModEq
import Mathlib.Data.List.Nodup
import Nanos6.Foundation.LabelledRun
import Nanos6.Foundation.Ownership

/-!
# Ticket spin locks

`lock` takes the next free ticket and spins until it is the current one.
`tryLock` reads the next free ticket, compares it with the current one and then
takes it with a compare and exchange, so other threads may run between the three.
Tickets are machine integers and wrap around.

Each thread is at one point of these functions, and each step is one access to
one of the two tickets.  The checks of the owner are those of the debug version.
-/

namespace Nanos6.TicketSpinLock

open Foundation

/-- Where a thread is in `lock`, `tryLock` or `unlock`. -/
inductive Point (width : Nat) where
  /-- The thread neither has the lock nor asks for it. -/
  | outside
  /-- In the loop of `lock`. -/
  | spinning (ticket : BitVec width)
  /-- In `tryLock`, before it loads the current ticket.  `issued` is the number of
  tickets that had been taken when it read the next free one. -/
  | comparing (ticket : BitVec width) (issued : Nat)
  /-- In `tryLock`, before the compare and exchange. -/
  | exchanging (ticket : BitVec width) (issued : Nat)
  /-- With the lock, before the owner is set. -/
  | entering
  | holding
  /-- In `unlock`, after the owner has been unset. -/
  | leaving
  deriving DecidableEq, Repr

namespace Point

variable {width : Nat}

/-- The thread has the lock. -/
def isInside : Point width → Bool
  | .entering | .holding | .leaving => true
  | _ => false

/-- The thread has a ticket that has not been passed on. -/
def isQueued : Point width → Bool
  | .spinning _ | .entering | .holding | .leaving => true
  | _ => false

theorem isQueued_of_isInside {point : Point width}
    (inside : point.isInside = true) : point.isQueued = true := by
  cases point <;> first | rfl | cases inside

end Point

structure State (width : Nat) (Thread Worker : Type) where
  currentTicket : BitVec width := 0
  nextFreeTicket : BitVec width := 0
  owner : Option Worker := none
  point : Thread → Point width := fun _ => .outside
  /-- An assertion about the owner has failed. -/
  assertionFailed : Bool := false
  /-- The threads that have taken a ticket, in order. -/
  arrivals : List Thread := []
  /-- The threads that have got the lock, in order. -/
  entries : List Thread := []
  /-- How often the current ticket has been increased. -/
  served : Nat := 0

inductive Action (Thread : Type) where
  /-- `lock` takes a ticket. -/
  | lock (thread : Thread)
  /-- The loop of `lock` loads the current ticket. -/
  | load (thread : Thread)
  /-- `tryLock` reads the next free ticket. -/
  | tryLock (thread : Thread)
  /-- `tryLock` compares it with the current ticket. -/
  | compare (thread : Thread)
  /-- `compare_exchange_strong` of `tryLock`. -/
  | exchange (thread : Thread)
  /-- `assertUnowned` and `setOwner`. -/
  | setOwner (thread : Thread)
  /-- `unlock` up to `unsetOwner`. -/
  | unlock (thread : Thread)
  /-- `fetch_add` of `unlock`. -/
  | increase (thread : Thread)
  deriving DecidableEq, Repr

section Steps

variable {width : Nat} {Thread Worker : Type} [DecidableEq Thread]

namespace State

def setPoint (state : State width Thread Worker) (thread : Thread)
    (point : Point width) : State width Thread Worker :=
  { state with point := Function.update state.point thread point }

@[simp]
theorem point_setPoint (state : State width Thread Worker) (thread : Thread)
    (point : Point width) :
    (state.setPoint thread point).point =
      Function.update state.point thread point :=
  rfl

/-- The thread takes the next free ticket. -/
def takeTicket (state : State width Thread Worker) (thread : Thread)
    (point : Point width) : State width Thread Worker :=
  { state.setPoint thread point with
    nextFreeTicket := state.nextFreeTicket + 1
    arrivals := state.arrivals ++ [thread] }

def enter (state : State width Thread Worker) (thread : Thread) :
    State width Thread Worker :=
  { state.setPoint thread .entering with
    entries := state.entries ++ [thread] }

/-- The tickets that have been taken and not been passed on. -/
def queue (state : State width Thread Worker) : List Thread :=
  state.arrivals.drop state.served

end State

variable [DecidableEq Worker]

/-- One step.  `worker` is `getCurrentWorkerThread` as each thread sees it. -/
def step (worker : Thread → Option Worker) (state : State width Thread Worker) :
    Action Thread → Option (State width Thread Worker)
  | .lock thread =>
      match state.point thread with
      | .outside =>
          some (state.takeTicket thread (.spinning state.nextFreeTicket))
      | _ => none
  | .load thread =>
      match state.point thread with
      | .spinning ticket =>
          if state.currentTicket = ticket then some (state.enter thread)
          else some state
      | _ => none
  | .tryLock thread =>
      match state.point thread with
      | .outside =>
          some (state.setPoint thread
            (.comparing state.nextFreeTicket state.arrivals.length))
      | _ => none
  | .compare thread =>
      match state.point thread with
      | .comparing ticket issued =>
          if state.currentTicket = ticket then
            some (state.setPoint thread (.exchanging ticket issued))
          else some (state.setPoint thread .outside)
      | _ => none
  | .exchange thread =>
      match state.point thread with
      | .exchanging ticket _ =>
          if state.nextFreeTicket = ticket then
            some ((state.takeTicket thread .entering).enter thread)
          else some (state.setPoint thread .outside)
      | _ => none
  | .setOwner thread =>
      match state.point thread with
      | .entering =>
          some
            { state.setPoint thread .holding with
              assertionFailed := state.assertionFailed || state.owner.isSome
              owner := worker thread }
      | _ => none
  | .unlock thread =>
      match state.point thread with
      | .holding =>
          some
            { state.setPoint thread .leaving with
              assertionFailed :=
                state.assertionFailed || decide (state.owner ≠ worker thread)
              owner := none }
      | _ => none
  | .increase thread =>
      match state.point thread with
      | .leaving =>
          some
            { state.setPoint thread .outside with
              currentTicket := state.currentTicket + 1
              served := state.served + 1 }
      | _ => none

section Inversion

variable {worker : Thread → Option Worker}
  {state next : State width Thread Worker} {thread : Thread}

theorem step_lock_eq_some :
    step worker state (.lock thread) = some next ↔
      state.point thread = .outside ∧
        state.takeTicket thread (.spinning state.nextFreeTicket) = next := by
  unfold step
  cases here : state.point thread <;> simp [here]

theorem step_load_eq_some :
    step worker state (.load thread) = some next ↔
      ∃ ticket, state.point thread = .spinning ticket ∧
        (if state.currentTicket = ticket then state.enter thread
          else state) = next := by
  unfold step
  cases here : state.point thread <;> simp [here, ← apply_ite some]

theorem step_tryLock_eq_some :
    step worker state (.tryLock thread) = some next ↔
      state.point thread = .outside ∧
        state.setPoint thread
          (.comparing state.nextFreeTicket state.arrivals.length) = next := by
  unfold step
  cases here : state.point thread <;> simp [here]

theorem step_compare_eq_some :
    step worker state (.compare thread) = some next ↔
      ∃ ticket issued, state.point thread = .comparing ticket issued ∧
        (if state.currentTicket = ticket then
          state.setPoint thread (.exchanging ticket issued)
        else state.setPoint thread .outside) = next := by
  unfold step
  cases here : state.point thread <;> simp [here, ← apply_ite some]

theorem step_exchange_eq_some :
    step worker state (.exchange thread) = some next ↔
      ∃ ticket issued, state.point thread = .exchanging ticket issued ∧
        (if state.nextFreeTicket = ticket then
          (state.takeTicket thread .entering).enter thread
        else state.setPoint thread .outside) = next := by
  unfold step
  cases here : state.point thread <;> simp [here, ← apply_ite some]

theorem step_setOwner_eq_some :
    step worker state (.setOwner thread) = some next ↔
      state.point thread = .entering ∧
        { state.setPoint thread .holding with
          assertionFailed := state.assertionFailed || state.owner.isSome
          owner := worker thread } = next := by
  unfold step
  cases here : state.point thread <;> simp [here]

theorem step_unlock_eq_some :
    step worker state (.unlock thread) = some next ↔
      state.point thread = .holding ∧
        { state.setPoint thread .leaving with
          assertionFailed :=
            state.assertionFailed || decide (state.owner ≠ worker thread)
          owner := none } = next := by
  unfold step
  cases here : state.point thread <;> simp [here]

theorem step_increase_eq_some :
    step worker state (.increase thread) = some next ↔
      state.point thread = .leaving ∧
        { state.setPoint thread .outside with
          currentTicket := state.currentTicket + 1
          served := state.served + 1 } = next := by
  unfold step
  cases here : state.point thread <;> simp [here]

end Inversion

/-! ## The invariant -/

/-- Tickets that are less than one round apart are the same only if their numbers
are. -/
theorem eq_of_ofNat_eq {low high : Nat} (ordered : low ≤ high)
    (near : high < low + 2 ^ width)
    (same : BitVec.ofNat width low = BitVec.ofNat width high) : low = high := by
  have sameNat := congrArg BitVec.toNat same
  rw [BitVec.toNat_ofNat, BitVec.toNat_ofNat] at sameNat
  have divides : 2 ^ width ∣ high - low :=
    (Nat.modEq_iff_dvd' ordered).mp sameNat
  have zero : high - low = 0 :=
    Nat.eq_zero_of_dvd_of_lt divides (by omega)
  omega

/-- What a call of `tryLock` knows: unless a whole round of tickets has been taken
meanwhile, the lock was free when it compared. -/
def Point.IsJustified (arrived served : Nat) : Point width → Prop
  | .comparing ticket issued =>
      ticket = BitVec.ofNat width issued ∧ issued ≤ arrived ∧
        issued < served + 2 ^ width
  | .exchanging ticket issued =>
      ticket = BitVec.ofNat width issued ∧ issued ≤ arrived ∧
        (arrived < issued + 2 ^ width → issued ≤ served)
  | _ => True

theorem Point.IsJustified.mono {point : Point width}
    {arrived served later further : Nat}
    (justified : point.IsJustified arrived served) (arrivals : arrived ≤ later)
    (services : served ≤ further) : point.IsJustified later further := by
  cases point with
  | comparing ticket issued =>
      obtain ⟨number, before, near⟩ := justified
      exact ⟨number, by omega, by omega⟩
  | exchanging ticket issued =>
      obtain ⟨number, before, free⟩ := justified
      refine ⟨number, by omega, fun fresh => ?_⟩
      have := free (by omega)
      omega
  | outside => trivial
  | spinning => trivial
  | entering => trivial
  | holding => trivial
  | leaving => trivial

/-- The invariant, with the thread that has the lock if there is one. -/
structure IsSound (worker : Thread → Option Worker)
    (state : State width Thread Worker) (insider : Option Thread) : Prop where
  current : state.currentTicket = BitVec.ofNat width state.served
  nextFree : state.nextFreeTicket = BitVec.ofNat width state.arrivals.length
  served_le : state.served ≤ state.arrivals.length
  queued : ListedBy Point.isQueued state.point state.queue
  nodup : state.queue.Nodup
  tickets : ∀ position thread ticket, state.queue[position]? = some thread →
    state.point thread = .spinning ticket →
    ticket = BitVec.ofNat width (state.served + position)
  inside : OwnedBy Point.isInside state.point insider
  first : ∀ thread, insider = some thread → state.queue.head? = some thread
  entries : state.entries =
    state.arrivals.take state.served ++ insider.toList
  owner : state.owner = insider.bind fun thread =>
    if state.point thread = .holding then worker thread else none
  justified : ∀ thread,
    (state.point thread).IsJustified state.arrivals.length state.served
  assertions : state.assertionFailed = false

omit [DecidableEq Thread] [DecidableEq Worker] in
theorem isSound_init (worker : Thread → Option Worker) :
    IsSound worker ({} : State width Thread Worker) none where
  current := rfl
  nextFree := rfl
  served_le := le_refl _
  queued := by
    intro thread
    simp [State.queue, Point.isQueued]
  nodup := by simp [State.queue]
  tickets := by
    intro position thread ticket found
    simp [State.queue] at found
  inside := by
    intro thread
    simp [Point.isInside]
  first := by
    intro thread insider
    cases insider
  entries := rfl
  owner := rfl
  justified := fun _ => trivial
  assertions := rfl

section Preservation

variable {worker : Thread → Option Worker}
  {state : State width Thread Worker} {insider : Option Thread}
  {thread : Thread}

namespace IsSound

omit [DecidableEq Thread] [DecidableEq Worker] in
theorem length_queue (sound : IsSound worker state insider) :
    state.served + state.queue.length = state.arrivals.length := by
  have := sound.served_le
  rw [State.queue, List.length_drop]
  omega

omit [DecidableEq Thread] [DecidableEq Worker] in
theorem length_queue_le [Fintype Thread]
    (sound : IsSound worker state insider) :
    state.queue.length ≤ Fintype.card Thread :=
  sound.nodup.length_le_card

/-- A thread that is not in the queue leaves room for it. -/
theorem length_queue_lt [Fintype Thread]
    (sound : IsSound worker state insider)
    (free : (state.point thread).isQueued = false) :
    state.queue.length < Fintype.card Thread := by
  have absent : thread ∉ state.queue := by
    rw [← sound.queued, free]
    simp
  have longer : (thread :: state.queue).Nodup :=
    List.nodup_cons.mpr ⟨absent, sound.nodup⟩
  have := longer.length_le_card
  rw [List.length_cons] at this
  omega

/-- Only the thread with the lock sets the owner. -/
theorem owner_update (sound : IsSound worker state insider)
    (notInside : insider ≠ some thread) (after : Point width) :
    state.owner = insider.bind fun other =>
      if Function.update state.point thread after other = .holding then
        worker other
      else none := by
  rw [sound.owner]
  cases insider with
  | none => rfl
  | some other =>
      have different : other ≠ thread :=
        fun same => notInside (by rw [same])
      rw [Option.bind_some, Option.bind_some, Function.update_of_ne different]

theorem justified_update (sound : IsSound worker state insider)
    {after : Point width} {arrived served : Nat}
    (justified : after.IsJustified arrived served)
    (arrivals : state.arrivals.length ≤ arrived)
    (services : state.served ≤ served) (other : Thread) :
    (Function.update state.point thread after other).IsJustified arrived
      served := by
  by_cases equal : other = thread
  · rw [equal, Function.update_self]
    exact justified
  · rw [Function.update_of_ne equal]
    exact (sound.justified other).mono arrivals services

/-- A thread outside of the queue does not have the lock. -/
theorem ne_insider (sound : IsSound worker state insider)
    (free : (state.point thread).isQueued = false) :
    insider ≠ some thread := by
  intro isInsider
  have inside := (sound.inside thread).mpr isInsider
  rw [Point.isQueued_of_isInside inside] at free
  cases free

/-- A move that neither enters nor leaves the queue. -/
theorem setPoint (sound : IsSound worker state insider) {point : Point width}
    (before : (state.point thread).isQueued = false)
    (after : point.isQueued = false)
    (justified : point.IsJustified state.arrivals.length state.served) :
    IsSound worker (state.setPoint thread point) insider := by
  have outside : ∀ other : Point width, other.isQueued = false →
      other.isInside = false := by
    intro other free
    cases other <;> first | rfl | cases free
  have notQueued : ∀ other, other ∈ state.queue → other ≠ thread := by
    intro other member same
    rw [← sound.queued, same, before] at member
    cases member
  exact
    { current := sound.current
      nextFree := sound.nextFree
      served_le := sound.served_le
      queued := sound.queued.keep (by rw [before, after])
      nodup := sound.nodup
      tickets := by
        intro position other ticket found spins
        have different := notQueued other (List.mem_of_getElem? found)
        rw [State.point_setPoint, Function.update_of_ne different] at spins
        exact sound.tickets position other ticket found spins
      inside := sound.inside.keep (by
        rw [outside _ before, outside _ after])
      first := sound.first
      entries := sound.entries
      owner := sound.owner_update (sound.ne_insider before) point
      justified :=
        sound.justified_update justified (le_refl _) (le_refl _)
      assertions := sound.assertions }

/-- `lock` takes a ticket. -/
theorem lock (sound : IsSound worker state insider)
    (before : state.point thread = .outside) :
    IsSound worker
      (state.takeTicket thread (.spinning state.nextFreeTicket)) insider := by
  have queue : (state.takeTicket thread
      (.spinning state.nextFreeTicket)).queue = state.queue ++ [thread] :=
    List.drop_append_of_le_length sound.served_le
  have absent : thread ∉ state.queue := by
    rw [← sound.queued, before]
    simp [Point.isQueued]
  have notInside : insider ≠ some thread :=
    sound.ne_insider (by rw [before]; rfl)
  exact
    { current := sound.current
      nextFree := by
        change state.nextFreeTicket + 1 = _
        rw [sound.nextFree, State.takeTicket, List.length_append,
          List.length_singleton, BitVec.ofNat_add]
        rfl
      served_le := by
        have := sound.served_le
        change state.served ≤ (state.arrivals ++ [thread]).length
        rw [List.length_append]
        omega
      queued := by
        rw [queue]
        exact sound.queued.add rfl
      nodup := by
        rw [queue, List.nodup_append_comm]
        exact List.nodup_cons.mpr ⟨absent, sound.nodup⟩
      tickets := by
        intro position other ticket found spins
        rw [queue] at found
        change ticket = BitVec.ofNat width (state.served + position)
        change Function.update state.point thread _ other = _ at spins
        by_cases equal : other = thread
        · subst equal
          rw [Function.update_self, Point.spinning.injEq,
            sound.nextFree] at spins
          rcases Nat.lt_or_ge position state.queue.length with small | large
          · rw [List.getElem?_append_left small] at found
            exact absurd (List.mem_of_getElem? found) absent
          · rw [List.getElem?_append_right large,
              List.getElem?_singleton] at found
            split at found
            · rename_i zero
              have length := sound.length_queue
              rw [← spins, show state.served + position =
                state.arrivals.length by omega]
            · cases found
        · rw [Function.update_of_ne equal] at spins
          refine sound.tickets position other ticket ?_ spins
          rcases Nat.lt_or_ge position state.queue.length with small | large
          · rw [List.getElem?_append_left small] at found
            exact found
          · rw [List.getElem?_append_right large,
              List.getElem?_singleton] at found
            split at found
            · exact absurd (Option.some.inj found).symm equal
            · cases found
      inside := by
        refine sound.inside.keep ?_
        rw [before]
        rfl
      first := by
        intro other isInsider
        rw [queue, List.head?_append, sound.first other isInsider]
        rfl
      entries := by
        change state.entries =
          (state.arrivals ++ [thread]).take state.served ++ _
        rw [List.take_append_of_le_length sound.served_le]
        exact sound.entries
      owner := sound.owner_update notInside _
      justified := by
        refine sound.justified_update trivial ?_ (le_refl _)
        change _ ≤ (state.arrivals ++ [thread]).length
        rw [List.length_append]
        omega
      assertions := sound.assertions }

/-- The thread whose ticket is the current one is the first of the queue. -/
theorem head_queue [Fintype Thread] (sound : IsSound worker state insider)
    (few : Fintype.card Thread ≤ 2 ^ width)
    (before : state.point thread = .spinning state.currentTicket) :
    state.queue.head? = some thread := by
  have member : thread ∈ state.queue := by
    rw [← sound.queued, before]
    rfl
  obtain ⟨position, found⟩ := List.mem_iff_getElem?.mp member
  have number := sound.tickets position thread _ found before
  rw [sound.current] at number
  have small : position < state.queue.length :=
    (List.getElem?_eq_some_iff.mp found).1
  have length := sound.length_queue_le
  have same := eq_of_ofNat_eq (by omega) (by omega) number
  have zero : position = 0 := by omega
  rw [zero] at found
  rw [List.head?_eq_getElem?]
  exact found

/-- The first of the queue gets the lock. -/
theorem enter (sound : IsSound worker state insider)
    {ticket : BitVec width} (before : state.point thread = .spinning ticket)
    (head : state.queue.head? = some thread) :
    IsSound worker (state.enter thread) (some thread) := by
  have none : insider = none := by
    cases isInsider : insider with
    | none => rfl
    | some other =>
        have alsoHead := sound.first other isInsider
        rw [head] at alsoHead
        have inside := (sound.inside other).mpr isInsider
        rw [← Option.some.inj alsoHead, before] at inside
        cases inside
  subst none
  exact
    { current := sound.current
      nextFree := sound.nextFree
      served_le := sound.served_le
      queued := sound.queued.keep (by rw [before]; rfl)
      nodup := sound.nodup
      tickets := by
        intro position other ticket found spins
        refine sound.tickets position other ticket found ?_
        change Function.update state.point thread _ other = _ at spins
        by_cases equal : other = thread
        · rw [equal, Function.update_self] at spins
          cases spins
        · rw [Function.update_of_ne equal] at spins
          exact spins
      inside := sound.inside.take rfl
      first := by
        intro other isThread
        cases isThread
        exact head
      entries := by
        change state.entries ++ [thread] = _
        rw [sound.entries]
        simp [State.enter, State.setPoint]
      owner := by
        change state.owner =
          if Function.update state.point thread _ thread = .holding then
            worker thread
          else .none
        rw [sound.owner, Function.update_self]
        rfl
      justified := sound.justified_update trivial (le_refl _) (le_refl _)
      assertions := sound.assertions }

/-- The exchange of `tryLock` succeeds on a free lock. -/
theorem exchange (sound : IsSound worker state insider)
    {ticket : BitVec width} {issued : Nat}
    (before : state.point thread = .exchanging ticket issued)
    (fresh : state.arrivals.length < issued + 2 ^ width)
    (same : state.nextFreeTicket = ticket) :
    IsSound worker ((state.takeTicket thread .entering).enter thread)
      (some thread) := by
  obtain ⟨number, earlier, free⟩ : ticket = BitVec.ofNat width issued ∧
      issued ≤ state.arrivals.length ∧
      (state.arrivals.length < issued + 2 ^ width →
        issued ≤ state.served) := by
    have justified := sound.justified thread
    rw [before] at justified
    exact justified
  have nobody : issued = state.arrivals.length := by
    refine eq_of_ofNat_eq earlier fresh ?_
    rw [← number, ← same, sound.nextFree]
  have servedAll : state.served = state.arrivals.length := by
    have := sound.served_le
    have := free fresh
    omega
  have empty : state.queue = [] := by
    rw [State.queue, servedAll, List.drop_length]
  have none : insider = none := by
    cases isInsider : insider with
    | none => rfl
    | some other =>
        have head := sound.first other isInsider
        rw [empty] at head
        cases head
  subst none
  have queue : ((state.takeTicket thread .entering).enter thread).queue =
      [thread] := by
    change (state.arrivals ++ [thread]).drop state.served = _
    rw [servedAll, List.drop_left]
  have point : ((state.takeTicket thread .entering).enter thread).point =
      Function.update state.point thread .entering :=
    Function.update_idem _ _ _
  exact
    { current := sound.current
      nextFree := by
        change state.nextFreeTicket + 1 =
          BitVec.ofNat width (state.arrivals ++ [thread]).length
        rw [sound.nextFree, List.length_append, List.length_singleton,
          BitVec.ofNat_add]
        rfl
      served_le := by
        have := sound.served_le
        change state.served ≤ (state.arrivals ++ [thread]).length
        rw [List.length_append]
        omega
      queued := by
        have listed := sound.queued
        rw [empty] at listed
        rw [queue, point]
        exact listed.add rfl
      nodup := by
        rw [queue]
        exact List.nodup_singleton thread
      tickets := by
        intro position other ticket found spins
        rw [queue] at found
        rw [point] at spins
        have equal : other = thread :=
          List.mem_singleton.mp (List.mem_of_getElem? found)
        rw [equal, Function.update_self] at spins
        cases spins
      inside := by
        rw [point]
        exact sound.inside.take rfl
      first := by
        intro other isThread
        cases isThread
        rw [queue]
        rfl
      entries := by
        change state.entries ++ [thread] =
          (state.arrivals ++ [thread]).take state.served ++ [thread]
        rw [sound.entries, List.take_append_of_le_length sound.served_le]
        simp
      owner := by
        rw [point]
        change state.owner =
          if Function.update state.point thread _ thread = .holding then
            worker thread
          else .none
        rw [sound.owner, Function.update_self]
        rfl
      justified := by
        rw [point]
        refine sound.justified_update trivial ?_ (le_refl _)
        change _ ≤ (state.arrivals ++ [thread]).length
        rw [List.length_append]
        omega
      assertions := sound.assertions }

/-- The thread with the lock changes the owner. -/
theorem change (sound : IsSound worker state insider)
    {after : Point width} {owner : Option Worker} {failed : Bool}
    (before : (state.point thread).isInside = true)
    (inside : after.isInside = true)
    (owned : owner = if after = .holding then worker thread else none)
    (passed : failed = false) :
    IsSound worker
      { state.setPoint thread after with
        assertionFailed := failed
        owner := owner } insider := by
  have isInsider : insider = some thread := sound.inside.owner_eq before
  exact
    { current := sound.current
      nextFree := sound.nextFree
      served_le := sound.served_le
      queued := sound.queued.keep (by
        rw [Point.isQueued_of_isInside before,
          Point.isQueued_of_isInside inside])
      nodup := sound.nodup
      tickets := by
        intro position other ticket found spins
        refine sound.tickets position other ticket found ?_
        change Function.update state.point thread _ other = _ at spins
        by_cases equal : other = thread
        · rw [equal, Function.update_self] at spins
          rw [spins] at inside
          cases inside
        · rw [Function.update_of_ne equal] at spins
          exact spins
      inside := sound.inside.keep (by rw [before, inside])
      first := sound.first
      entries := sound.entries
      owner := by
        rw [isInsider, Option.bind_some]
        change owner =
          if Function.update state.point thread after thread = .holding then
            worker thread
          else none
        rw [Function.update_self]
        exact owned
      justified := by
        refine sound.justified_update ?_ (le_refl _) (le_refl _)
        cases after <;> trivial
      assertions := passed }

/-- The lock is passed on. -/
theorem increase (sound : IsSound worker state insider)
    (before : state.point thread = .leaving) :
    IsSound worker
      { state.setPoint thread .outside with
        currentTicket := state.currentTicket + 1
        served := state.served + 1 } none := by
  have inside : (state.point thread).isInside = true := by
    rw [before]
    rfl
  have isInsider : insider = some thread := sound.inside.owner_eq inside
  have head := sound.first thread isInsider
  obtain ⟨rest, split⟩ : ∃ rest, state.queue = thread :: rest :=
    List.head?_eq_some_iff.mp head
  have queue : state.arrivals.drop (state.served + 1) = rest := by
    rw [← List.drop_drop, ← State.queue, split]
    rfl
  have distinct := sound.nodup
  rw [split] at distinct
  obtain ⟨absent, nodup⟩ := List.nodup_cons.mp distinct
  exact
    { current := by
        change state.currentTicket + 1 =
          BitVec.ofNat width (state.served + 1)
        rw [sound.current, BitVec.ofNat_add]
        rfl
      nextFree := sound.nextFree
      served_le := by
        have length := sound.length_queue
        rw [split, List.length_cons] at length
        change state.served + 1 ≤ state.arrivals.length
        omega
      queued := by
        have listed := sound.queued
        rw [split] at listed
        change ListedBy _ _ (state.arrivals.drop (state.served + 1))
        rw [queue]
        exact listed.tail absent rfl
      nodup := by
        change (state.arrivals.drop (state.served + 1)).Nodup
        rw [queue]
        exact nodup
      tickets := by
        intro position other ticket found spins
        change (state.arrivals.drop (state.served + 1))[position]? = _ at found
        rw [queue] at found
        change Function.update state.point thread _ other = _ at spins
        have different : other ≠ thread := by
          intro same
          rw [same] at found
          exact absent (List.mem_of_getElem? found)
        rw [Function.update_of_ne different] at spins
        have later := sound.tickets (position + 1) other ticket (by
          rw [split, List.getElem?_cons_succ]
          exact found) spins
        rw [later, Nat.add_right_comm, Nat.add_assoc]
      inside := sound.inside.drop inside rfl
      first := by
        intro other isNone
        cases isNone
      entries := by
        change state.entries = state.arrivals.take (state.served + 1) ++ []
        rw [sound.entries, isInsider, List.append_nil, List.take_add_one]
        rw [State.queue, List.head?_drop] at head
        rw [head]
      owner := by
        change state.owner = none
        rw [sound.owner, isInsider, Option.bind_some, before]
        rfl
      justified :=
        sound.justified_update trivial (le_refl _) (Nat.le_succ _)
      assertions := sound.assertions }

end IsSound

end Preservation

end Steps

end Nanos6.TicketSpinLock
