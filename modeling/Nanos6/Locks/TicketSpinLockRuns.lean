import Nanos6.Locks.TicketSpinLock

/-!
# Runs of a ticket spin lock

With no more threads than tickets the lock serves the threads one at a time and in
the order in which they take their tickets, as long as `tryLock` takes its ticket
less than one round after it has read it.  Both bounds are exact.
-/

namespace Nanos6.TicketSpinLock

open Foundation

variable {width : Nat} {Thread Worker : Type} [DecidableEq Thread]
  [DecidableEq Worker]

/-- The ticket of a thread before its exchange, and its number. -/
def Point.attempt : Point width → Option (BitVec width × Nat)
  | .exchanging ticket issued => some (ticket, issued)
  | _ => none

/-- A successful exchange of `tryLock` comes before `bound` tickets have been taken
since it read the next free one. -/
def IsFresh (bound : Nat) (state : State width Thread Worker) :
    Action Thread → Prop
  | .exchange thread =>
      ∀ attempt ∈ (state.point thread).attempt,
        state.nextFreeTicket = attempt.1 →
        state.arrivals.length < attempt.2 + bound
  | _ => True

instance (bound : Nat) (state : State width Thread Worker)
    (action : Action Thread) : Decidable (IsFresh bound state action) :=
  match action with
  | .exchange thread =>
      inferInstanceAs (Decidable
        (∀ attempt ∈ (state.point thread).attempt,
          state.nextFreeTicket = attempt.1 →
          state.arrivals.length < attempt.2 + bound))
  | .lock _ | .load _ | .tryLock _ | .compare _ | .setOwner _ | .unlock _
  | .increase _ => .isTrue trivial

/-- No two threads have the lock. -/
def State.IsExclusive (state : State width Thread Worker) : Prop :=
  ∀ first second, (state.point first).isInside = true →
    (state.point second).isInside = true → first = second

/-- What the lock is for. -/
structure State.Serves (state : State width Thread Worker) : Prop where
  exclusive : state.IsExclusive
  /-- The threads get the lock in the order of their tickets. -/
  inOrder : state.entries <+: state.arrivals
  /-- A waiting thread may enter exactly when the lock is free and the thread is
  the next one in this order. -/
  turn : ∀ thread ticket, state.point thread = .spinning ticket →
    (ticket = state.currentTicket ↔
      state.arrivals[state.entries.length]? = some thread ∧
        ∀ other, (state.point other).isInside = false)
  /-- A free lock on which threads wait lets one of them enter. -/
  advances : (∀ other, (state.point other).isInside = false) →
    ∀ thread ticket, state.point thread = .spinning ticket →
      ∃ first, state.point first = .spinning state.currentTicket
  /-- The assertion of the destructor. -/
  unlocked : (∀ thread, (state.point thread).isQueued = false) →
    state.currentTicket = state.nextFreeTicket
  assertions : state.assertionFailed = false

section Sound

variable {worker : Thread → Option Worker}
  {state next : State width Thread Worker} {insider : Option Thread}

namespace IsSound

theorem insider_eq_none (sound : IsSound worker state insider)
    (free : ∀ other, (state.point other).isInside = false) :
    insider = none := by
  cases isInsider : insider with
  | none => rfl
  | some other =>
      have inside := (sound.inside other).mpr isInsider
      rw [free] at inside
      cases inside

/-- The next thread to get a free lock is the first of the queue. -/
theorem getElem?_entries (sound : IsSound worker state insider)
    (free : ∀ other, (state.point other).isInside = false) :
    state.arrivals[state.entries.length]? = state.queue.head? := by
  have length : state.entries.length = state.served := by
    rw [sound.entries, sound.insider_eq_none free]
    simp [sound.served_le]
  rw [length, State.queue, List.head?_drop]

theorem currentTicket_eq (sound : IsSound worker state insider)
    {thread : Thread} {ticket : BitVec width}
    (head : state.queue.head? = some thread)
    (spins : state.point thread = .spinning ticket) :
    ticket = state.currentTicket := by
  rw [List.head?_eq_getElem?] at head
  rw [sound.tickets 0 thread ticket head spins, sound.current]
  rfl

theorem serves [Fintype Thread] (sound : IsSound worker state insider)
    (few : Fintype.card Thread ≤ 2 ^ width) : state.Serves where
  exclusive := fun _ _ firstInside secondInside =>
    sound.inside.unique firstInside secondInside
  inOrder := by
    rw [sound.entries]
    cases isInsider : insider with
    | none =>
        rw [Option.toList_none, List.append_nil]
        exact List.take_prefix _ _
    | some thread =>
        have head := sound.first thread isInsider
        rw [State.queue, List.head?_drop] at head
        have longer := List.take_prefix (state.served + 1) state.arrivals
        rw [List.take_add_one, head] at longer
        exact longer
  turn := by
    intro thread ticket spins
    constructor
    · intro isCurrent
      rw [isCurrent] at spins
      have head := sound.head_queue few spins
      have free : ∀ other, (state.point other).isInside = false := by
        intro other
        by_contra inside
        rw [Bool.not_eq_false] at inside
        have isInsider := sound.inside.owner_eq inside
        have alsoHead := sound.first other isInsider
        rw [head] at alsoHead
        rw [← Option.some.inj alsoHead, spins] at inside
        cases inside
      exact ⟨(sound.getElem?_entries free).trans head, free⟩
    · rintro ⟨next, free⟩
      rw [sound.getElem?_entries free] at next
      exact sound.currentTicket_eq next spins
  advances := by
    intro free thread ticket spins
    have member : thread ∈ state.queue := by
      rw [← sound.queued, spins]
      rfl
    obtain ⟨first, rest, split⟩ := List.exists_cons_of_ne_nil
      (List.ne_nil_of_mem member)
    have queued : (state.point first).isQueued = true := by
      rw [sound.queued, split]
      exact List.mem_cons_self
    have notInside := free first
    refine ⟨first, ?_⟩
    cases here : state.point first with
    | spinning other =>
        rw [sound.currentTicket_eq (by rw [split]; rfl) here]
    | outside => rw [here] at queued; cases queued
    | comparing => rw [here] at queued; cases queued
    | exchanging => rw [here] at queued; cases queued
    | entering => rw [here] at notInside; cases notInside
    | holding => rw [here] at notInside; cases notInside
    | leaving => rw [here] at notInside; cases notInside
  unlocked := by
    intro free
    have empty : state.queue = [] := by
      rw [List.eq_nil_iff_forall_not_mem]
      intro thread member
      rw [← sound.queued, free] at member
      cases member
    have length := sound.length_queue
    rw [empty, List.length_nil, Nat.add_zero] at length
    rw [sound.current, sound.nextFree, length]
  assertions := sound.assertions

end IsSound

/-- One step keeps the invariant. -/
theorem isSound_step [Fintype Thread]
    (few : Fintype.card Thread ≤ 2 ^ width) {action : Action Thread}
    (sound : IsSound worker state insider)
    (fresh : IsFresh (2 ^ width) state action)
    (taken : step worker state action = some next) :
    ∃ insider, IsSound worker next insider := by
  cases action with
  | lock thread =>
      obtain ⟨outside, rfl⟩ := step_lock_eq_some.mp taken
      exact ⟨insider, sound.lock outside⟩
  | load thread =>
      obtain ⟨ticket, spins, rfl⟩ := step_load_eq_some.mp taken
      split
      · rename_i isCurrent
        rw [← isCurrent] at spins
        exact ⟨_, sound.enter spins (sound.head_queue few spins)⟩
      · exact ⟨insider, sound⟩
  | tryLock thread =>
      obtain ⟨outside, rfl⟩ := step_tryLock_eq_some.mp taken
      have free : (state.point thread).isQueued = false := by
        rw [outside]
        rfl
      refine ⟨insider, sound.setPoint free rfl ⟨sound.nextFree, le_refl _, ?_⟩⟩
      have room := sound.length_queue_lt free
      have length := sound.length_queue
      omega
  | compare thread =>
      obtain ⟨ticket, issued, compares, rfl⟩ := step_compare_eq_some.mp taken
      have free : (state.point thread).isQueued = false := by
        rw [compares]
        rfl
      split
      · rename_i isCurrent
        have justified := sound.justified thread
        rw [compares] at justified
        obtain ⟨number, earlier, near⟩ := justified
        refine ⟨insider, sound.setPoint free rfl ⟨number, earlier, ?_⟩⟩
        intro recent
        -- The current ticket and the one that was read are less than a round apart.
        by_contra later
        have servedLess := sound.served_le
        have same : state.served = issued :=
          eq_of_ofNat_eq (by omega) near (by
            rw [← sound.current, isCurrent, number])
        omega
      · exact ⟨insider, sound.setPoint free rfl trivial⟩
  | exchange thread =>
      obtain ⟨ticket, issued, exchanges, rfl⟩ :=
        step_exchange_eq_some.mp taken
      split
      · rename_i isFree
        exact ⟨_, sound.exchange exchanges
          (fresh (ticket, issued) (by rw [exchanges]; rfl) isFree) isFree⟩
      · refine ⟨insider, sound.setPoint ?_ rfl trivial⟩
        rw [exchanges]
        rfl
  | setOwner thread =>
      obtain ⟨enters, rfl⟩ := step_setOwner_eq_some.mp taken
      have inside : (state.point thread).isInside = true := by
        rw [enters]
        rfl
      refine ⟨insider, sound.change inside rfl (if_pos rfl).symm ?_⟩
      rw [sound.assertions, sound.owner, sound.inside.owner_eq inside,
        Option.bind_some, enters]
      rfl
  | unlock thread =>
      obtain ⟨holds, rfl⟩ := step_unlock_eq_some.mp taken
      have inside : (state.point thread).isInside = true := by
        rw [holds]
        rfl
      refine ⟨insider, sound.change inside rfl rfl ?_⟩
      rw [sound.assertions, sound.owner, sound.inside.owner_eq inside,
        Option.bind_some, holds, if_pos rfl]
      simp
  | increase thread =>
      obtain ⟨leaves, rfl⟩ := step_increase_eq_some.mp taken
      exact ⟨none, sound.increase leaves⟩

/-- The invariant, whoever has the lock. -/
def State.IsConsistent (worker : Thread → Option Worker)
    (state : State width Thread Worker) : Prop :=
  ∃ insider, IsSound worker state insider

theorem isConsistent_of_fresh [Fintype Thread]
    (few : Fintype.card Thread ≤ 2 ^ width)
    (run : Run (step worker) (IsFresh (2 ^ width)) {} state) :
    state.IsConsistent worker := by
  have initial : ({} : State width Thread Worker).IsConsistent worker :=
    ⟨none, isSound_init worker⟩
  refine run.invariant initial ?_
  rintro before action after ⟨insider, sound⟩ fresh taken
  exact isSound_step few sound fresh taken

end Sound

/-- Mutual exclusion, order and progress along every run whose calls of `tryLock`
are not a whole round of tickets late. -/
theorem serves_of_fresh [Fintype Thread] (worker : Thread → Option Worker)
    (few : Fintype.card Thread ≤ 2 ^ width)
    {state : State width Thread Worker}
    (run : Run (step worker) (IsFresh (2 ^ width)) {} state) :
    state.Serves := by
  obtain ⟨insider, sound⟩ := isConsistent_of_fresh few run
  exact sound.serves few

/-- One thread gets the lock through `lock`, the other through its second call of
`tryLock`. -/
def oneAfterTheOther : List (Action Bool) :=
  [.lock true, .load true, .tryLock false, .setOwner true, .compare false,
    .unlock true, .tryLock false, .increase true, .compare false,
    .exchange false]

theorem serves_one_after_the_other :
    ∃ state : State 1 Bool Bool,
      Run (step some) (IsFresh (2 ^ 1)) {} state ∧
        state.entries = [true, false] ∧ state.Serves := by
  obtain ⟨state, run, entries⟩ : ∃ state : State 1 Bool Bool,
      Run (step some) (IsFresh (2 ^ 1)) {} state ∧
        (state.entries == [true, false]) = true :=
    exists_run_of_executeAllowed oneAfterTheOther {}
      (fun state : State 1 Bool Bool => state.entries == [true, false])
      (by decide)
  exact ⟨state, run, by simpa using entries,
    serves_of_fresh some (by decide) run⟩

/-! ## How late a call of `tryLock` may be -/

section Stale

variable (worker : Thread → Option Worker) (bound : Nat)

/-- A thread that has just got the lock releases it. -/
theorem exists_release {state : State width Thread Worker} {thread : Thread}
    (enters : state.point thread = .entering) :
    ∃ next, Run (step worker) (IsFresh bound) state next ∧
      next.point = Function.update state.point thread .outside ∧
      next.currentTicket = state.currentTicket + 1 ∧
      next.nextFreeTicket = state.nextFreeTicket ∧
      next.arrivals = state.arrivals := by
  obtain ⟨held, sets, heldPoint, heldCurrent, heldNext, heldArrivals⟩ :
      ∃ held, step worker state (.setOwner thread) = some held ∧
        held.point = Function.update state.point thread .holding ∧
        held.currentTicket = state.currentTicket ∧
        held.nextFreeTicket = state.nextFreeTicket ∧
        held.arrivals = state.arrivals :=
    ⟨_, step_setOwner_eq_some.mpr ⟨enters, rfl⟩, rfl, rfl, rfl, rfl⟩
  obtain ⟨left, unlocks, leftPoint, leftCurrent, leftNext, leftArrivals⟩ :
      ∃ left, step worker held (.unlock thread) = some left ∧
        left.point = Function.update held.point thread .leaving ∧
        left.currentTicket = held.currentTicket ∧
        left.nextFreeTicket = held.nextFreeTicket ∧
        left.arrivals = held.arrivals := by
    refine ⟨_, step_unlock_eq_some.mpr ⟨?_, rfl⟩, rfl, rfl, rfl, rfl⟩
    rw [heldPoint, Function.update_self]
  obtain ⟨free, increases, freePoint, freeCurrent, freeNext, freeArrivals⟩ :
      ∃ free, step worker left (.increase thread) = some free ∧
        free.point = Function.update left.point thread .outside ∧
        free.currentTicket = left.currentTicket + 1 ∧
        free.nextFreeTicket = left.nextFreeTicket ∧
        free.arrivals = left.arrivals := by
    refine ⟨_, step_increase_eq_some.mpr ⟨?_, rfl⟩, rfl, rfl, rfl, rfl⟩
    rw [leftPoint, Function.update_self]
  have run : Run (step worker) (IsFresh bound) state free :=
    ((Run.single (.setOwner thread) trivial sets).trans
      (.single (.unlock thread) trivial unlocks)).trans
        (.single (.increase thread) trivial increases)
  refine ⟨free, run, ?_, ?_, ?_, ?_⟩
  · rw [freePoint, leftPoint, heldPoint, Function.update_idem,
      Function.update_idem]
  · rw [freeCurrent, leftCurrent, heldCurrent]
  · rw [freeNext, leftNext, heldNext]
  · rw [freeArrivals, leftArrivals, heldArrivals]

/-- A thread gets a free lock. -/
theorem exists_enter {state : State width Thread Worker} {thread : Thread}
    (outside : state.point thread = .outside)
    (free : state.currentTicket = state.nextFreeTicket) :
    ∃ next, Run (step worker) (IsFresh bound) state next ∧
      next.point = Function.update state.point thread .entering ∧
      next.currentTicket = state.currentTicket ∧
      next.nextFreeTicket = state.nextFreeTicket + 1 ∧
      next.arrivals = state.arrivals ++ [thread] := by
  have locks : step worker state (.lock thread) =
      some (state.takeTicket thread (.spinning state.nextFreeTicket)) :=
    step_lock_eq_some.mpr ⟨outside, rfl⟩
  have loads : step worker
      (state.takeTicket thread (.spinning state.nextFreeTicket))
      (.load thread) =
        some ((state.takeTicket thread
          (.spinning state.nextFreeTicket)).enter thread) :=
    step_load_eq_some.mpr
      ⟨state.nextFreeTicket, Function.update_self _ _ _, if_pos free⟩
  refine ⟨_, (Run.single (.lock thread) trivial locks).trans
    (.single (.load thread) trivial loads), ?_, rfl, rfl, rfl⟩
  exact Function.update_idem _ _ _

/-- Any number of tickets can be taken and passed on while another thread is
before its exchange. -/
theorem exists_rounds {start : State width Thread Worker} {thread : Thread}
    (outside : start.point thread = .outside)
    (free : start.currentTicket = start.nextFreeTicket) (rounds : Nat) :
    ∃ state, Run (step worker) (IsFresh bound) start state ∧
      state.point = start.point ∧
      state.currentTicket = state.nextFreeTicket ∧
      state.nextFreeTicket = start.nextFreeTicket + BitVec.ofNat width rounds ∧
      state.arrivals.length = start.arrivals.length + rounds := by
  induction rounds with
  | zero => exact ⟨start, .refl _, rfl, free, by simp, rfl⟩
  | succ rounds inductionHypothesis =>
      obtain ⟨state, before, point, unlocked, nextFree, arrivals⟩ :=
        inductionHypothesis
      obtain ⟨entered, enters, enteredPoint, enteredCurrent, enteredNext,
        enteredArrivals⟩ := exists_enter worker bound
          (show state.point thread = .outside by rw [point, outside]) unlocked
      obtain ⟨released, releases, releasedPoint, releasedCurrent,
        releasedNext, releasedArrivals⟩ :=
          exists_release worker bound
            (show entered.point thread = .entering by
              rw [enteredPoint, Function.update_self])
      refine ⟨released, (before.trans enters).trans releases, ?_, ?_, ?_, ?_⟩
      · rw [releasedPoint, enteredPoint, Function.update_idem, point, ← outside,
          Function.update_eq_self]
      · rw [releasedCurrent, enteredCurrent, releasedNext, enteredNext, unlocked]
      · rw [releasedNext, enteredNext, nextFree, BitVec.ofNat_add,
          BitVec.add_assoc]
        rfl
      · rw [releasedArrivals, enteredArrivals, List.length_append, arrivals]
        rfl

/-- A call of `tryLock` that sleeps over one round of tickets gets a lock that
another thread has. -/
theorem exists_stale {first second : Thread} (different : first ≠ second)
    (late : 2 ^ width < bound) :
    ∃ state : State width Thread Worker,
      Run (step worker) (IsFresh bound) {} state ∧ ¬ state.IsExclusive := by
  obtain ⟨start, startIs⟩ : ∃ start : State width Thread Worker, start =
      State.setPoint {} first (.exchanging 0 0) := ⟨_, rfl⟩
  have tries : step worker ({} : State width Thread Worker) (.tryLock first) =
      some (State.setPoint {} first (.comparing 0 0)) :=
    step_tryLock_eq_some.mpr ⟨rfl, rfl⟩
  have compares : step worker
      (State.setPoint ({} : State width Thread Worker) first (.comparing 0 0))
      (.compare first) = some start := by
    refine step_compare_eq_some.mpr ⟨0, 0, Function.update_self _ _ _, ?_⟩
    refine (if_pos rfl).trans ?_
    rw [startIs, State.setPoint, State.setPoint, State.setPoint,
      Function.update_idem]
  have begun : Run (step worker) (IsFresh bound) {} start :=
    (Run.single (.tryLock first) trivial tries).trans
      (.single (.compare first) trivial compares)
  have outside : start.point second = .outside := by
    rw [startIs, State.point_setPoint, Function.update_of_ne different.symm]
  have free : start.currentTicket = start.nextFreeTicket := by
    rw [startIs]
    rfl
  -- The second thread takes all tickets but one and passes them on, and then
  -- keeps the lock with the last one.
  obtain ⟨round, rounds, roundPoint, roundCurrent, roundNext, roundArrivals⟩ :=
    exists_rounds worker bound outside free (2 ^ width - 1)
  obtain ⟨entered, enters, enteredPoint, -, enteredNext, enteredArrivals⟩ :=
    exists_enter worker bound
      (show round.point second = .outside by rw [roundPoint, outside])
      roundCurrent
  have positive : 0 < 2 ^ width := Nat.two_pow_pos width
  have wrapped : entered.nextFreeTicket = 0 := by
    rw [enteredNext, roundNext, startIs]
    calc (0 : BitVec width) + BitVec.ofNat width (2 ^ width - 1) + 1
        = BitVec.ofNat width (2 ^ width - 1 + 1) := by
          rw [BitVec.ofNat_add]
          simp
      _ = BitVec.ofNat width (2 ^ width) := by
          rw [Nat.sub_add_cancel positive]
      _ = 0 := by
          apply BitVec.eq_of_toNat_eq
          rw [BitVec.toNat_ofNat, Nat.mod_self]
          exact BitVec.toNat_zero.symm
  have exchanging : entered.point first = .exchanging 0 0 := by
    rw [enteredPoint, Function.update_of_ne different, roundPoint, startIs,
      State.point_setPoint, Function.update_self]
  have takes : step worker entered (.exchange first) =
      some ((entered.takeTicket first .entering).enter first) :=
    step_exchange_eq_some.mpr ⟨0, 0, exchanging, if_pos wrapped⟩
  have length : entered.arrivals.length = 2 ^ width := by
    rw [enteredArrivals, List.length_append, roundArrivals, startIs]
    simp [State.setPoint]
    omega
  have isFresh : IsFresh bound entered (.exchange first) := by
    intro attempt here _
    rw [exchanging] at here
    cases here
    change _ < 0 + bound
    omega
  refine ⟨_, ((begun.trans rounds).trans enters).tail isFresh takes, ?_⟩
  intro exclusive
  refine different (exclusive first second ?_ ?_)
  · simp [State.enter, Point.isInside]
  · simp [State.enter, State.takeTicket, Function.update_of_ne different.symm,
      enteredPoint, Point.isInside]

end Stale

/-- Exactly how late `tryLock` may be: one round of tickets. -/
theorem excludes_iff_fresh [Fintype Thread] [Nontrivial Thread]
    (worker : Thread → Option Worker)
    (few : Fintype.card Thread ≤ 2 ^ width) (bound : Nat) :
    (∀ state : State width Thread Worker,
      Run (step worker) (IsFresh bound) {} state → state.IsExclusive) ↔
      bound ≤ 2 ^ width := by
  constructor
  · intro excludes
    by_contra late
    obtain ⟨first, second, different⟩ := exists_pair_ne Thread
    obtain ⟨state, run, shared⟩ :
        ∃ state : State width Thread Worker,
          Run (step worker) (IsFresh bound) {} state ∧
            ¬ state.IsExclusive :=
      exists_stale worker bound different (by omega)
    exact shared (excludes state run)
  · intro early state run
    have fresh : Run (step worker) (IsFresh (2 ^ width)) {} state := by
      refine run.mono ?_
      intro before action allowed
      cases action with
      | exchange thread =>
          intro attempt exchanging isFree
          have := allowed attempt exchanging isFree
          omega
      | _ => trivial
    obtain ⟨insider, sound⟩ := isConsistent_of_fresh few fresh
    exact (sound.serves few).exclusive

theorem excludes_iff_fresh_two :
    (∀ state : State 1 Bool Bool,
      Run (step some) (IsFresh 2) {} state → state.IsExclusive) ∧
    ¬ ∀ state : State 1 Bool Bool,
      Run (step some) (IsFresh 3) {} state → state.IsExclusive :=
  ⟨(excludes_iff_fresh some (by decide) 2).mpr (by decide),
    fun excludes =>
      absurd ((excludes_iff_fresh some (by decide) 3).mp excludes)
        (by decide)⟩

/-! ## How many threads may wait -/

/-- Nobody uses `tryLock`. -/
def LocksOnly (_ : State width Thread Worker) : Action Thread → Prop
  | .tryLock _ | .compare _ | .exchange _ => False
  | _ => True

/-- All threads of a list take a ticket. -/
theorem exists_waiting (worker : Thread → Option Worker)
    (threads : List Thread) (distinct : threads.Nodup) :
    ∃ state : State width Thread Worker,
      Run (step worker) LocksOnly {} state ∧
      state.currentTicket = 0 ∧
      state.nextFreeTicket = BitVec.ofNat width threads.length ∧
      (∀ thread, thread ∉ threads → state.point thread = .outside) ∧
      ∀ position thread, threads[position]? = some thread →
        state.point thread = .spinning (BitVec.ofNat width position) := by
  induction threads using List.reverseRecOn with
  | nil =>
      refine ⟨{}, .refl _, rfl, rfl, fun _ _ => rfl, ?_⟩
      intro position thread found
      cases found
  | append_singleton rest last inductionHypothesis =>
      rw [List.nodup_append_comm] at distinct
      obtain ⟨absent, restDistinct⟩ := List.nodup_cons.mp distinct
      obtain ⟨state, run, current, nextFree, outside, waiting⟩ :=
        inductionHypothesis restDistinct
      have locks : step worker state (.lock last) =
          some (state.takeTicket last (.spinning state.nextFreeTicket)) :=
        step_lock_eq_some.mpr ⟨outside last absent, rfl⟩
      refine ⟨_, run.trans (.single (.lock last) trivial locks), current, ?_, ?_,
        ?_⟩
      · change state.nextFreeTicket + 1 = _
        rw [nextFree, List.length_append, List.length_singleton,
          BitVec.ofNat_add]
        rfl
      · intro thread missing
        rw [List.mem_append, List.mem_singleton, not_or] at missing
        change Function.update state.point last _ thread = _
        rw [Function.update_of_ne missing.2]
        exact outside thread missing.1
      · intro position thread found
        change Function.update state.point last _ thread = _
        rcases Nat.lt_or_ge position rest.length with small | large
        · rw [List.getElem?_append_left small] at found
          have different : thread ≠ last := by
            intro same
            rw [same] at found
            exact absent (List.mem_of_getElem? found)
          rw [Function.update_of_ne different]
          exact waiting position thread found
        · rw [List.getElem?_append_right large,
            List.getElem?_singleton] at found
          split at found
          · rename_i zero
            rw [← Option.some.inj found, Function.update_self, nextFree,
              show rest.length = position by omega]
          · cases found

/-- Without `tryLock`, exclusion takes as many tickets as there are threads. -/
theorem excludes_iff_card_le [Fintype Thread]
    (worker : Thread → Option Worker) :
    (∀ state : State width Thread Worker,
      Run (step worker) LocksOnly {} state → state.IsExclusive) ↔
      Fintype.card Thread ≤ 2 ^ width := by
  constructor
  · intro excludes
    by_contra many
    -- One thread more than tickets: the last one gets the ticket of the first.
    obtain ⟨threads, distinct, length⟩ : ∃ threads : List Thread,
        threads.Nodup ∧ threads.length = Fintype.card Thread :=
      ⟨Finset.univ.toList, Finset.nodup_toList _, Finset.length_toList _⟩
    obtain ⟨state, run, current, -, -, waiting⟩ :
        ∃ state : State width Thread Worker,
          Run (step worker) LocksOnly {} state ∧ state.currentTicket = 0 ∧
          state.nextFreeTicket = BitVec.ofNat width threads.length ∧
          (∀ thread, thread ∉ threads → state.point thread = .outside) ∧
          ∀ position thread, threads[position]? = some thread →
            state.point thread = .spinning (BitVec.ofNat width position) :=
      exists_waiting worker threads distinct
    have positive : 0 < 2 ^ width := Nat.two_pow_pos width
    obtain ⟨first, isFirst⟩ : ∃ first, threads[0]? = some first :=
      ⟨_, List.getElem?_eq_getElem (by omega)⟩
    obtain ⟨last, isLast⟩ : ∃ last, threads[2 ^ width]? = some last :=
      ⟨_, List.getElem?_eq_getElem (by omega)⟩
    have different : first ≠ last := by
      intro same
      rw [same, ← isLast] at isFirst
      have zero : 0 = 2 ^ width :=
        (List.getElem?_inj (by omega) distinct).mp isFirst
      omega
    have wraps : BitVec.ofNat width (2 ^ width) = 0 := by
      apply BitVec.eq_of_toNat_eq
      rw [BitVec.toNat_ofNat, Nat.mod_self]
      exact BitVec.toNat_zero.symm
    have firstEnters : step worker state (.load first) =
        some (state.enter first) :=
      step_load_eq_some.mpr ⟨_, waiting 0 first isFirst, if_pos current⟩
    have lastWaits : (state.enter first).point last =
        .spinning (BitVec.ofNat width (2 ^ width)) := by
      change Function.update state.point first _ last = _
      rw [Function.update_of_ne different.symm]
      exact waiting _ last isLast
    have lastEnters : step worker (state.enter first) (.load last) =
        some ((state.enter first).enter last) :=
      step_load_eq_some.mpr
        ⟨_, lastWaits, if_pos (current.trans wraps.symm)⟩
    have both := excludes _ ((run.trans
      (.single (.load first) trivial firstEnters)).trans
        (.single (.load last) trivial lastEnters))
    refine different (both first last ?_ ?_)
    · simp [State.enter, Function.update_of_ne different, Point.isInside]
    · simp [State.enter, Point.isInside]
  · intro few state run
    have fresh : Run (step worker) (IsFresh (2 ^ width)) {} state := by
      refine run.mono ?_
      intro before action allowed
      cases action with
      | exchange thread => cases allowed
      | _ => trivial
    obtain ⟨insider, sound⟩ := isConsistent_of_fresh few fresh
    exact (sound.serves few).exclusive

end Nanos6.TicketSpinLock
