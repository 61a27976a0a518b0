import Nanos6.Foundation.LabelledRun

/-!
# Blocking in a taskwait

A task in a taskwait gives up its part of the countdown and its thread enters
the loop of `taskBlocks`.  Whoever takes the countdown to zero puts the task in
the scheduler, and the thread that gets it from there resumes the thread of the
task.  Meanwhile that thread may run other tasks inline; so that it cannot be
resumed then, it adds itself to the countdown again, but only if the countdown
has not reached zero.

The model follows one task and its thread.  The other parties are counted: those
that have seen the countdown reach zero and have not called `addReadyTask` yet,
the places of the task in the scheduler, and those that have got it from there
and have not resumed the thread yet.  A decrement without an earlier increment
wakes the task up too early, and again when the last child goes.
-/

namespace Nanos6.Blocking

open Foundation

/-- Where the thread of the task is. -/
inductive Point where
  /-- In the body of the task. -/
  | body
  /-- In a taskwait, before `markAsBlocked`. -/
  | handleEnterTaskwait
  /-- At the head of the loop of `taskBlocks`. -/
  | getReadyTask
  /-- Before the load of `disableScheduling`. -/
  | disableScheduling
  /-- Before an exchange of `disableScheduling`, with the value expected. -/
  | compareExchange (countdown : Int)
  /-- Running a replacement task inline. -/
  | handleTask
  /-- Waiting on the condition variable of the thread. -/
  | suspend
  /-- Out of `taskBlocks`, before `markAsUnblocked`. -/
  | leave
  deriving DecidableEq, Repr

/-- What `getReadyTask` returns to `taskBlocks`: the blocked task itself, a task
that is run inline, or else nothing or a task that is run by another thread. -/
inductive Replacement where
  | currentTask
  | inline
  | notInline
  deriving DecidableEq, Repr

structure System where
  point : Point := .body
  countdownToBeWokenUp : Int := 1
  /-- The children whose `removeChild` has not been performed. -/
  children : Nat := 0
  /-- The increments of `increaseRemovalBlockingCount` not yet taken back. -/
  removalBlockers : Nat := 0
  /-- The parties that are going to call `addReadyTask` for the task. -/
  unblockers : Nat := 0
  /-- How often the task is in the scheduler. -/
  queued : Nat := 0
  /-- The parties that are going to resume the thread of the task. -/
  resumers : Nat := 0
  /-- The condition variable of the thread has been signaled. -/
  signaled : Bool := false
  /-- An assertion of the countdown or of the condition variable has failed. -/
  assertionFailed : Bool := false
  /-- How often the own thread has seen the countdown reach zero since the last
  taskwait was entered. -/
  ownObservations : Nat := 0
  /-- How often another party has seen that. -/
  otherObservations : Nat := 0
  /-- The calls of `addReadyTask` since then. -/
  enqueues : Nat := 0
  /-- How often the thread has gone on since then. -/
  resumptions : Nat := 0
  deriving DecidableEq, Repr

namespace System

/-- The thread has seen the countdown reach zero, or has been resumed. -/
def resumes (system : System) : System :=
  { system with point := .leave, resumptions := system.resumptions + 1 }

/-- The thread of the task takes one from the countdown: `markAsBlocked` and
`enableScheduling`. -/
def decreaseByOwnThread (system : System) : System :=
  let countdown := system.countdownToBeWokenUp - 1
  let changed :=
    { system with
      countdownToBeWokenUp := countdown
      assertionFailed := system.assertionFailed || decide (countdown < 0) }
  if countdown = 0 then
    { changed with ownObservations := changed.ownObservations + 1 }.resumes
  else
    { changed with point := .getReadyTask }

/-- Another party takes one from the countdown: `removeChild` and
`decreaseRemovalBlockingCount`.  The thread of the task has not finished, so
`disposeOrUnblockTask` is going to put it in the scheduler. -/
def decreaseByOther (system : System) : System :=
  let countdown := system.countdownToBeWokenUp - 1
  let changed :=
    { system with
      countdownToBeWokenUp := countdown
      assertionFailed := system.assertionFailed || decide (countdown < 0) }
  if countdown = 0 then
    { changed with
      otherObservations := changed.otherObservations + 1
      unblockers := changed.unblockers + 1 }
  else
    changed

/-- The test of the loop of `disableScheduling` for a value just read. -/
def testCountdown (system : System) (countdown : Int) : System :=
  if 0 < countdown then
    { system with point := .compareExchange countdown }
  else
    { system with point := .suspend }

end System

inductive Action where
  | addChild
  | increaseRemovalBlockingCount
  | taskwait
  | markAsBlocked
  | getReadyTask (replacement : Replacement)
  | load
  | compareExchange
  | enableScheduling
  | wait
  | markAsUnblocked
  | removeChild
  | decreaseRemovalBlockingCount
  | addReadyTask
  | getReadyTaskByOther
  | resume
  deriving DecidableEq

def step (system : System) : Action → Option System
  | .addChild =>
      if system.point = .body then
        some
          { system with
            countdownToBeWokenUp := system.countdownToBeWokenUp + 1
            children := system.children + 1 }
      else none
  | .increaseRemovalBlockingCount =>
      if system.point = .body ∨ system.point = .handleEnterTaskwait then
        some
          { system with
            countdownToBeWokenUp := system.countdownToBeWokenUp + 1
            removalBlockers := system.removalBlockers + 1 }
      else none
  | .taskwait =>
      if system.point = .body then
        if system.countdownToBeWokenUp = 1 then some system
        else
          some
            { system with
              point := .handleEnterTaskwait
              ownObservations := 0
              otherObservations := 0
              enqueues := 0
              resumptions := 0 }
      else none
  | .markAsBlocked =>
      if system.point = .handleEnterTaskwait then
        some system.decreaseByOwnThread
      else none
  | .getReadyTask replacement =>
      if system.point = .getReadyTask then
        match replacement with
        | .currentTask =>
            if 0 < system.queued then
              some { system with queued := system.queued - 1 }.resumes
            else none
        | .inline => some { system with point := .disableScheduling }
        | .notInline => some { system with point := .suspend }
      else none
  | .load =>
      if system.point = .disableScheduling then
        some
          ({ system with
            assertionFailed :=
              system.assertionFailed ||
                decide (system.countdownToBeWokenUp < 0) }.testCountdown
            system.countdownToBeWokenUp)
      else none
  | .compareExchange =>
      match system.point with
      | .compareExchange countdown =>
          if system.countdownToBeWokenUp = countdown then
            some
              { system with
                point := .handleTask
                countdownToBeWokenUp := countdown + 1 }
          else
            some (system.testCountdown system.countdownToBeWokenUp)
      | _ => none
  | .enableScheduling =>
      if system.point = .handleTask then some system.decreaseByOwnThread
      else none
  | .wait =>
      if system.point = .suspend ∧ system.signaled = true then
        some { system with signaled := false }.resumes
      else none
  | .markAsUnblocked =>
      if system.point = .leave then
        some
          { system with
            point := .body
            countdownToBeWokenUp := system.countdownToBeWokenUp + 1
            assertionFailed :=
              system.assertionFailed ||
                decide (system.countdownToBeWokenUp ≠ 0) }
      else none
  | .removeChild =>
      some { system with children := system.children - 1 }.decreaseByOther
  | .decreaseRemovalBlockingCount =>
      some
        { system with
          removalBlockers := system.removalBlockers - 1 }.decreaseByOther
  | .addReadyTask =>
      if 0 < system.unblockers then
        some
          { system with
            unblockers := system.unblockers - 1
            queued := system.queued + 1
            enqueues := system.enqueues + 1 }
      else none
  | .getReadyTaskByOther =>
      if 0 < system.queued then
        some
          { system with
            queued := system.queued - 1
            resumers := system.resumers + 1 }
      else none
  | .resume =>
      if 0 < system.resumers then
        some
          { system with
            resumers := system.resumers - 1
            signaled := true
            assertionFailed := system.assertionFailed || system.signaled }
      else none

/-- A decrement takes back an earlier increment. -/
def permits (system : System) : Action → Bool
  | .removeChild => 0 < system.children
  | .decreaseRemovalBlockingCount => 0 < system.removalBlockers
  | _ => true

def Permitted (system : System) (action : Action) : Prop :=
  permits system action = true

instance (system : System) (action : Action) :
    Decidable (Permitted system action) :=
  inferInstanceAs (Decidable (permits system action = true))

/-! ## The invariant -/

/-- The thread itself is counted: it runs the task, or has disabled its
scheduling. -/
def Point.isCounted : Point → Bool
  | .body => true
  | .handleEnterTaskwait => true
  | .handleTask => true
  | _ => false

/-- The thread is in the loop of `taskBlocks` and not counted. -/
def Point.isBlocked : Point → Bool
  | .getReadyTask => true
  | .disableScheduling => true
  | .compareExchange _ => true
  | .suspend => true
  | _ => false

/-- The thread has entered a taskwait and not left `taskBlocks`. -/
def Point.isInTaskwait : Point → Bool
  | .body => false
  | .leave => false
  | _ => true

namespace System

/-- What the countdown still waits for. -/
def outstanding (system : System) : Nat :=
  system.children + system.removalBlockers

/-- How often the task is on its way from a party that has seen the countdown
reach zero to its own thread. -/
def inFlight (system : System) : Nat :=
  system.unblockers + system.queued + system.resumers + system.signaled.toNat

end System

structure Inv (system : System) : Prop where
  countdown :
    system.countdownToBeWokenUp =
      system.point.isCounted.toNat + system.outstanding
  asserted : system.assertionFailed = false
  /-- A party that has seen the zero has put the task in the scheduler, or is
  going to. -/
  enqueued : system.enqueues + system.unblockers = system.otherObservations
  expected : ∀ countdown, system.point = .compareExchange countdown →
    0 < countdown
  /-- As long as the thread is in the taskwait and has not gone on, nobody has
  seen the zero but a party whose task is in flight. -/
  waits : system.point.isInTaskwait = true →
    system.ownObservations = 0 ∧ system.resumptions = 0 ∧
      system.otherObservations = system.inFlight
  blocked : system.point.isBlocked = true →
    (system.outstanding = 0 ↔ system.otherObservations = 1) ∧
      system.otherObservations ≤ 1
  counted : system.point.isCounted = true → system.inFlight = 0
  left : system.point = .leave →
    system.outstanding = 0 ∧ system.inFlight = 0 ∧
      system.ownObservations + system.otherObservations = 1 ∧
      system.resumptions = 1
  /-- What the taskwait has left behind when the body goes on. -/
  body : system.point = .body →
    system.ownObservations + system.otherObservations = system.resumptions ∧
      system.resumptions ≤ 1

theorem Inv.initial : Inv {} where
  countdown := rfl
  asserted := rfl
  enqueued := rfl
  expected := fun _ here => by cases here
  waits := fun here => by cases here
  blocked := fun here => by cases here
  counted := fun _ => rfl
  left := fun here => by cases here
  body := fun _ => ⟨rfl, Nat.zero_le 1⟩

namespace Inv

variable {system next : System}

/-- The thread stays where it is, and what the countdown waits for grows. -/
theorem increase (inv : Inv system) {children removalBlockers : Nat}
    (runs : system.point = .body ∨ system.point = .handleEnterTaskwait)
    (more : children + removalBlockers = system.outstanding + 1) :
    Inv
      { system with
        countdownToBeWokenUp := system.countdownToBeWokenUp + 1
        children := children
        removalBlockers := removalBlockers } where
  countdown := by
    have countdown := inv.countdown
    simp only [System.outstanding] at countdown more ⊢
    omega
  asserted := inv.asserted
  enqueued := inv.enqueued
  expected := inv.expected
  waits := inv.waits
  blocked := by
    intro blocked
    rcases runs with here | here <;> rw [here] at blocked <;> cases blocked
  counted := inv.counted
  left := by
    intro here
    rcases runs with there | there <;> rw [there] at here <;> cases here
  body := inv.body

theorem taskwait (inv : Inv system)
    (taken : step system .taskwait = some next) : Inv next := by
  simp only [step] at taken
  split at taken
  case isFalse => cases taken
  case isTrue here =>
  split at taken
  · cases taken
    exact inv
  · cases taken
    have none := inv.counted (by rw [here]; rfl)
    exact
      { countdown := by
          have countdown := inv.countdown
          rw [here] at countdown
          exact countdown
        asserted := inv.asserted
        enqueued := by
          simp only [System.inFlight] at none
          simp only
          omega
        expected := fun _ there => by cases there
        waits := fun _ => ⟨rfl, rfl, none.symm⟩
        blocked := fun blocked => by cases blocked
        counted := fun _ => none
        left := fun left => by cases left
        body := fun body => by cases body }

/-- `markAsBlocked` and `enableScheduling`: either nothing is outstanding and
nobody else can have seen a zero, or the thread goes to the head of the
loop. -/
theorem decreaseByOwnThread (inv : Inv system)
    (counted : system.point.isCounted = true)
    (inTaskwait : system.point.isInTaskwait = true) :
    Inv system.decreaseByOwnThread := by
  have countdown := inv.countdown
  have none := inv.counted counted
  obtain ⟨unseen, still, others⟩ := inv.waits inTaskwait
  rw [counted] at countdown
  rw [none] at others
  simp only [Bool.toNat_true] at countdown
  have notNegative : ¬ system.countdownToBeWokenUp - 1 < 0 := by omega
  have enqueued := inv.enqueued
  unfold System.decreaseByOwnThread
  dsimp only
  split
  · rename_i zero
    have isOver : system.outstanding = 0 := by omega
    exact
      { countdown := by
          simp only [System.resumes, Point.isCounted, Bool.toNat_false]
          simp only [System.outstanding] at isOver ⊢
          omega
        asserted := by
          simp [System.resumes, inv.asserted, notNegative]
        enqueued := enqueued
        expected := fun _ here => by cases here
        waits := fun here => by cases here
        blocked := fun here => by cases here
        counted := fun here => by cases here
        left := fun _ => ⟨isOver, none, by
          simp only [System.resumes, unseen, others], by
          simp only [System.resumes, still]⟩
        body := fun here => by cases here }
  · rename_i notZero
    exact
      { countdown := by
          simp only [Point.isCounted, Bool.toNat_false]
          simp only [System.outstanding] at countdown ⊢
          omega
        asserted := by
          simp [inv.asserted, notNegative]
        enqueued := enqueued
        expected := fun _ here => by cases here
        waits := fun _ => ⟨unseen, still, others.trans none.symm⟩
        blocked := by
          intro _
          simp only [System.outstanding] at countdown ⊢
          omega
        counted := fun here => by cases here
        left := fun here => by cases here
        body := fun here => by cases here }

/-- `removeChild` and `decreaseRemovalBlockingCount`, with one thing less
outstanding: the party sees the zero only if the thread is blocked. -/
theorem decreaseByOther (inv : Inv system) {children removalBlockers : Nat}
    (less : children + removalBlockers + 1 = system.outstanding) :
    Inv
      { system with
        children := children
        removalBlockers := removalBlockers }.decreaseByOther := by
  have countdown := inv.countdown
  have notLeft : system.point ≠ .leave := by
    intro here
    have isOver := (inv.left here).1
    omega
  have notNegative : ¬ system.countdownToBeWokenUp - 1 < 0 := by omega
  have enqueued := inv.enqueued
  unfold System.decreaseByOther
  dsimp only
  split
  · rename_i zero
    have uncounted : system.point.isCounted = false := by
      by_contra counted
      rw [Bool.not_eq_false] at counted
      rw [counted] at countdown
      simp only [Bool.toNat_true] at countdown
      omega
    rw [uncounted] at countdown
    simp only [Bool.toNat_false] at countdown
    have isBlocked : system.point.isBlocked = true := by
      cases here : system.point <;>
        simp_all [Point.isCounted, Point.isBlocked]
    have inTaskwait : system.point.isInTaskwait = true := by
      cases here : system.point <;>
        simp_all [Point.isInTaskwait, Point.isBlocked]
    obtain ⟨iff, atMost⟩ := inv.blocked isBlocked
    obtain ⟨unseen, still, others⟩ := inv.waits inTaskwait
    have before : system.otherObservations = 0 := by
      have differ : ¬ system.otherObservations = 1 := by
        intro one
        have isOver := iff.mpr one
        omega
      omega
    exact
      { countdown := by
          simp only [System.outstanding, uncounted, Bool.toNat_false]
          omega
        asserted := by
          simp [inv.asserted, notNegative]
        enqueued := by
          simp only
          omega
        expected := inv.expected
        waits := by
          intro _
          refine ⟨unseen, still, ?_⟩
          simp only [System.inFlight] at others ⊢
          omega
        blocked := by
          intro _
          have isOver : children + removalBlockers = 0 := by omega
          simp [System.outstanding, before, Nat.add_eq_zero_iff.mp isOver]
        counted := by
          intro counted
          rw [uncounted] at counted
          cases counted
        left := fun here => absurd here notLeft
        body := by
          intro here
          rw [here] at uncounted
          cases uncounted }
  · rename_i notZero
    exact
      { countdown := by
          simp only [System.outstanding] at less countdown ⊢
          omega
        asserted := by
          simp [inv.asserted, notNegative]
        enqueued := enqueued
        expected := inv.expected
        waits := inv.waits
        blocked := by
          intro isBlocked
          obtain ⟨iff, atMost⟩ := inv.blocked isBlocked
          have uncounted : system.point.isCounted = false := by
            cases here : system.point <;>
              simp_all [Point.isCounted, Point.isBlocked]
          rw [uncounted] at countdown
          simp only [Bool.toNat_false] at countdown
          simp only [System.outstanding] at less iff countdown ⊢
          refine ⟨⟨?_, ?_⟩, atMost⟩
          · intro isOver
            omega
          · intro one
            have none := iff.mpr one
            omega
        counted := inv.counted
        left := fun here => absurd here notLeft
        body := inv.body }

/-- The thread moves on inside the loop of `taskBlocks`. -/
theorem moves (inv : Inv system) (isBlocked : system.point.isBlocked = true)
    {point : Point} (stays : point.isBlocked = true)
    (expected : ∀ countdown, point = .compareExchange countdown →
      0 < countdown) :
    Inv { system with point := point } := by
  have uncounted : ∀ {point : Point}, point.isBlocked = true →
      point.isCounted = false ∧ point.isInTaskwait = true := by
    intro point blocked
    cases point <;>
      simp_all [Point.isBlocked, Point.isCounted, Point.isInTaskwait]
  have countdown := inv.countdown
  rw [(uncounted isBlocked).1] at countdown
  exact
    { countdown := by
        simp only [(uncounted stays).1]
        exact countdown
      asserted := inv.asserted
      enqueued := inv.enqueued
      expected := expected
      waits := fun _ => inv.waits (uncounted isBlocked).2
      blocked := fun _ => inv.blocked isBlocked
      counted := by
        intro counted
        simp only [(uncounted stays).1] at counted
        cases counted
      left := by
        rintro rfl
        cases stays
      body := by
        rintro rfl
        cases stays }

theorem testCountdown (inv : Inv system)
    (isBlocked : system.point.isBlocked = true) (countdown : Int) :
    Inv (system.testCountdown countdown) := by
  unfold System.testCountdown
  split
  · rename_i positive
    refine inv.moves isBlocked rfl ?_
    intro other same
    cases same
    exact positive
  · exact inv.moves isBlocked rfl fun _ here => by cases here

/-- The thread takes the task that is on its way to it: from the scheduler, or
because it has been resumed. -/
theorem resumes (inv : Inv system) (isBlocked : system.point.isBlocked = true)
    {queued : Nat} {signaled : Bool}
    (taken : queued + signaled.toNat + 1 =
      system.queued + system.signaled.toNat) :
    Inv { system with queued := queued, signaled := signaled }.resumes := by
  have inTaskwait : system.point.isInTaskwait = true := by
    cases here : system.point <;>
      simp_all [Point.isBlocked, Point.isInTaskwait]
  obtain ⟨unseen, still, others⟩ := inv.waits inTaskwait
  obtain ⟨iff, atMost⟩ := inv.blocked isBlocked
  simp only [System.inFlight] at others
  have one : system.otherObservations = 1 := by omega
  have isOver := iff.mpr one
  have countdown := inv.countdown
  have uncounted : system.point.isCounted = false := by
    cases here : system.point <;>
      simp_all [Point.isCounted, Point.isBlocked]
  rw [uncounted] at countdown
  exact
    { countdown := countdown
      asserted := inv.asserted
      enqueued := inv.enqueued
      expected := fun _ here => by cases here
      waits := fun here => by cases here
      blocked := fun here => by cases here
      counted := fun here => by cases here
      left := by
        intro _
        refine ⟨isOver, ?_, ?_, ?_⟩
        · simp only [System.resumes, System.inFlight]
          omega
        · simp only [System.resumes, unseen, one]
        · simp only [System.resumes, still]
      body := fun here => by cases here }

theorem disableScheduling (inv : Inv system)
    (here : system.point =
      .compareExchange system.countdownToBeWokenUp) :
    Inv
      { system with
        point := .handleTask
        countdownToBeWokenUp := system.countdownToBeWokenUp + 1 } := by
  have positive := inv.expected _ here
  have isBlocked : system.point.isBlocked = true := by
    rw [here]
    rfl
  have countdown := inv.countdown
  rw [here] at countdown
  simp only [Point.isCounted, Bool.toNat_false] at countdown
  obtain ⟨iff, atMost⟩ := inv.blocked isBlocked
  have unseen : system.otherObservations = 0 := by
    have differ : ¬ system.otherObservations = 1 := by
      intro one
      have isOver := iff.mpr one
      omega
    omega
  have waits := inv.waits (by rw [here]; rfl)
  exact
    { countdown := by
        simp only [Point.isCounted, Bool.toNat_true]
        simp only [System.outstanding] at countdown ⊢
        omega
      asserted := inv.asserted
      enqueued := inv.enqueued
      expected := fun _ there => by cases there
      waits := fun _ => waits
      blocked := fun there => by cases there
      counted := fun _ => waits.2.2.symm.trans unseen
      left := fun there => by cases there
      body := fun there => by cases there }

theorem markAsUnblocked (inv : Inv system)
    (here : system.point = .leave) :
    Inv
      { system with
        point := .body
        countdownToBeWokenUp := system.countdownToBeWokenUp + 1
        assertionFailed :=
          system.assertionFailed ||
            decide (system.countdownToBeWokenUp ≠ 0) } := by
  obtain ⟨isOver, none, seen, once⟩ := inv.left here
  have countdown := inv.countdown
  rw [here, isOver] at countdown
  have zero : system.countdownToBeWokenUp = 0 := countdown
  exact
    { countdown := by
        simp only [Point.isCounted, Bool.toNat_true]
        simp only [System.outstanding] at isOver ⊢
        omega
      asserted := by
        simp [inv.asserted, zero]
      enqueued := inv.enqueued
      expected := fun _ there => by cases there
      waits := fun there => by cases there
      blocked := fun there => by cases there
      counted := fun _ => none
      left := fun there => by cases there
      body := by
        intro _
        simp only
        omega }

/-- The task goes one place further on its way to its thread. -/
theorem carries (inv : Inv system) {unblockers queued resumers enqueues : Nat}
    {signaled assertionFailed : Bool}
    (same : unblockers + queued + resumers + signaled.toNat =
      system.inFlight)
    (enqueued : enqueues + unblockers = system.enqueues + system.unblockers)
    (asserted : assertionFailed = false) :
    Inv
      { system with
        unblockers := unblockers
        queued := queued
        resumers := resumers
        signaled := signaled
        enqueues := enqueues
        assertionFailed := assertionFailed } where
  countdown := inv.countdown
  asserted := asserted
  enqueued := enqueued.trans inv.enqueued
  expected := inv.expected
  waits := by
    intro inTaskwait
    obtain ⟨unseen, still, others⟩ := inv.waits inTaskwait
    exact ⟨unseen, still, others.trans same.symm⟩
  blocked := inv.blocked
  counted := fun counted => same.trans (inv.counted counted)
  left := by
    intro here
    obtain ⟨isOver, none, seen, once⟩ := inv.left here
    exact ⟨isOver, same.trans none, seen, once⟩
  body := inv.body

/-- At most one party is on its way to the thread. -/
theorem inFlight_le (inv : Inv system) : system.inFlight ≤ 1 := by
  cases counted : system.point.isCounted with
  | true =>
      rw [inv.counted counted]
      exact Nat.zero_le 1
  | false =>
      cases isBlocked : system.point.isBlocked with
      | true =>
          have inTaskwait : system.point.isInTaskwait = true := by
            cases here : system.point <;>
              simp_all [Point.isBlocked, Point.isInTaskwait]
          rw [← (inv.waits inTaskwait).2.2]
          exact (inv.blocked isBlocked).2
      | false =>
          have here : system.point = .leave := by
            cases here : system.point <;>
              simp_all [Point.isBlocked, Point.isCounted]
          rw [(inv.left here).2.1]
          exact Nat.zero_le 1

/-- The countdown that is loaded is not negative. -/
theorem asserts (inv : Inv system) :
    (system.assertionFailed ||
      decide (system.countdownToBeWokenUp < 0)) = false := by
  have countdown := inv.countdown
  have notNegative : ¬ system.countdownToBeWokenUp < 0 := by omega
  simp [inv.asserted, notNegative]

theorem step (inv : Inv system) {action : Action}
    (permitted : Permitted system action)
    (taken : Blocking.step system action = some next) : Inv next := by
  cases action with
  | taskwait => exact inv.taskwait taken
  | addChild =>
      simp only [Blocking.step] at taken
      split at taken
      · rename_i here
        cases taken
        refine inv.increase (Or.inl here) ?_
        simp only [System.outstanding]
        omega
      · cases taken
  | increaseRemovalBlockingCount =>
      simp only [Blocking.step] at taken
      split at taken
      · rename_i here
        cases taken
        refine inv.increase here ?_
        simp only [System.outstanding]
        omega
      · cases taken
  | markAsBlocked =>
      simp only [Blocking.step] at taken
      split at taken
      · rename_i here
        cases taken
        exact inv.decreaseByOwnThread (by rw [here]; rfl) (by rw [here]; rfl)
      · cases taken
  | getReadyTask replacement =>
      simp only [Blocking.step] at taken
      split at taken
      · rename_i here
        have isBlocked : system.point.isBlocked = true := by
          rw [here]
          rfl
        cases replacement with
        | currentTask =>
            dsimp only at taken
            split at taken
            · rename_i some
              cases taken
              refine inv.resumes isBlocked ?_
              omega
            · cases taken
        | inline =>
            cases taken
            exact inv.moves isBlocked rfl fun _ there => by cases there
        | notInline =>
            cases taken
            exact inv.moves isBlocked rfl fun _ there => by cases there
      · cases taken
  | load =>
      simp only [Blocking.step] at taken
      split at taken
      · rename_i here
        cases taken
        rw [inv.asserts, ← inv.asserted]
        exact inv.testCountdown (by rw [here]; rfl) _
      · cases taken
  | compareExchange =>
      simp only [Blocking.step] at taken
      split at taken
      · rename_i countdown here
        split at taken
        · rename_i same
          cases taken
          subst same
          exact inv.disableScheduling here
        · cases taken
          exact inv.testCountdown (by rw [here]; rfl) _
      · cases taken
  | enableScheduling =>
      simp only [Blocking.step] at taken
      split at taken
      · rename_i here
        cases taken
        exact inv.decreaseByOwnThread (by rw [here]; rfl) (by rw [here]; rfl)
      · cases taken
  | wait =>
      simp only [Blocking.step] at taken
      split at taken
      · rename_i here
        cases taken
        refine inv.resumes (by rw [here.1]; rfl) ?_
        rw [here.2]
        rfl
      · cases taken
  | markAsUnblocked =>
      simp only [Blocking.step] at taken
      split at taken
      · rename_i here
        cases taken
        exact inv.markAsUnblocked here
      · cases taken
  | removeChild =>
      have some : 0 < system.children := of_decide_eq_true permitted
      cases taken
      refine inv.decreaseByOther ?_
      simp only [System.outstanding]
      omega
  | decreaseRemovalBlockingCount =>
      have some : 0 < system.removalBlockers := of_decide_eq_true permitted
      cases taken
      refine inv.decreaseByOther ?_
      simp only [System.outstanding]
      omega
  | addReadyTask =>
      simp only [Blocking.step] at taken
      split at taken
      · rename_i some
        cases taken
        refine inv.carries ?_ ?_ inv.asserted
        · simp only [System.inFlight]
          omega
        · omega
      · cases taken
  | getReadyTaskByOther =>
      simp only [Blocking.step] at taken
      split at taken
      · rename_i some
        cases taken
        refine inv.carries ?_ rfl inv.asserted
        simp only [System.inFlight]
        omega
      · cases taken
  | resume =>
      simp only [Blocking.step] at taken
      split at taken
      · rename_i some
        cases taken
        have atMost := inv.inFlight_le
        have unsignaled : system.signaled = false := by
          cases signaled : system.signaled with
          | false => rfl
          | true =>
              simp only [System.inFlight, signaled, Bool.toNat_true] at atMost
              omega
        refine inv.carries ?_ rfl ?_
        · simp only [System.inFlight, unsignaled, Bool.toNat_true,
            Bool.toNat_false]
          omega
        · rw [inv.asserted, unsignaled]
          rfl
      · cases taken

end Inv

/-! ## Resumption -/

/-- What is wanted of the taskwait that the task has entered last. -/
structure System.ResumesOnce (system : System) : Prop where
  /-- Somebody sees the countdown reach zero at most once. -/
  observations : system.ownObservations + system.otherObservations ≤ 1
  /-- The task is put in the scheduler only by a party that has seen it, and not
  twice. -/
  enqueues : system.enqueues ≤ system.otherObservations
  resumptions : system.resumptions ≤ 1
  /-- When the thread goes on, it has seen the zero itself and the task has not
  been in the scheduler, or another party has and has put it there once.  The
  countdown is zero, and nobody is going to resume the thread again. -/
  leaves : system.point = .leave →
    system.countdownToBeWokenUp = 0 ∧ system.inFlight = 0 ∧
      system.resumptions = 1 ∧
      (system.ownObservations = 1 ∧ system.otherObservations = 0 ∧
          system.enqueues = 0 ∨
        system.ownObservations = 0 ∧ system.otherObservations = 1 ∧
          system.enqueues = 1)
  /-- When the condition of the taskwait has become true, the thread of a
  suspended task is going to be resumed by exactly one party. -/
  wakes : system.point = .suspend → system.outstanding = 0 →
    system.inFlight = 1
  /-- Nobody resumes the thread while it runs another task inline, or once it
  has gone on. -/
  undisturbed : system.point.isCounted = true → system.inFlight = 0
  countdown : 0 ≤ system.countdownToBeWokenUp
  asserted : system.assertionFailed = false

theorem resumesOnce_of_inv {system : System} (inv : Inv system) :
    system.ResumesOnce := by
  have enqueued := inv.enqueued
  have countdown := inv.countdown
  -- The stretch of the taskwait that the thread is in decides who may have
  -- seen the zero.
  have seen : system.ownObservations + system.otherObservations ≤ 1 ∧
      system.resumptions ≤ 1 := by
    cases inTaskwait : system.point.isInTaskwait with
    | true =>
        obtain ⟨unseen, still, others⟩ := inv.waits inTaskwait
        have atMost := inv.inFlight_le
        omega
    | false =>
        cases here : system.point with
        | body =>
            obtain ⟨same, atMost⟩ := inv.body here
            omega
        | leave =>
            obtain ⟨isOver, none, one, once⟩ := inv.left here
            omega
        | _ =>
            rw [here] at inTaskwait
            cases inTaskwait
  refine ⟨seen.1, by omega, seen.2, ?_, ?_, inv.counted, by omega,
    inv.asserted⟩
  · intro here
    obtain ⟨isOver, none, one, once⟩ := inv.left here
    rw [here, isOver] at countdown
    refine ⟨countdown, none, once, ?_⟩
    simp only [System.inFlight] at none
    omega
  · intro here isOver
    have isBlocked : system.point.isBlocked = true := by
      rw [here]
      rfl
    rw [← (inv.waits (by rw [here]; rfl)).2.2]
    exact (inv.blocked isBlocked).1.mp isOver

/-- In every interleaving of the thread of a task with the other parties, and
for any number of taskwaits one after another, the task is resumed once if no
decrement is made that takes nothing back. -/
theorem resumesOnce_of_run {system : System}
    (run : Run step Permitted {} system) : system.ResumesOnce :=
  resumesOnce_of_inv <|
    run.invariant Inv.initial fun _ _ _ inv permitted taken =>
      inv.step permitted taken

/-- The thread runs a replacement task inline, in which the first of two
children goes, and disables the scheduling again; the second child goes before
the exchange, which fails, and another thread puts the task in the scheduler,
takes it from there and resumes the thread. -/
theorem resumesOnce_inline :
    ∃ system, Run step Permitted {} system ∧
      system.point = .leave ∧ system.enqueues = 1 ∧ system.ResumesOnce := by
  obtain ⟨system, run, left⟩ :=
    exists_run_of_executeAllowed
      ([.addChild, .addChild, .taskwait, .markAsBlocked, .getReadyTask .inline,
        .load, .compareExchange, .removeChild, .enableScheduling,
        .getReadyTask .inline, .load, .removeChild, .compareExchange,
        .addReadyTask, .getReadyTaskByOther, .resume, .wait] : List Action)
      ({} : System)
      (fun system => system.point == .leave && system.enqueues == 1)
      (by decide +kernel : (executeAllowed step Permitted
        ({} : System) _).any _ = true)
  simp only [Bool.and_eq_true, beq_iff_eq] at left
  exact ⟨system, run, left.1, left.2, resumesOnce_of_run run⟩

/-- The increase of `createTaskwait` is taken back twice, the second time while
a child is left, which wakes the task up; the child then takes the countdown to
zero again, and the task is put in the scheduler while it runs. -/
theorem resumesOnce_fails :
    ¬ ∀ system, Run step (fun _ _ => True) {} system →
      system.ResumesOnce := by
  intro holds
  obtain ⟨system, run, twice⟩ :=
    exists_run_of_executeAllowed
      ([.addChild, .addChild, .taskwait, .increaseRemovalBlockingCount,
        .decreaseRemovalBlockingCount, .removeChild, .markAsBlocked,
        .getReadyTask .notInline, .decreaseRemovalBlockingCount,
        .addReadyTask, .getReadyTaskByOther, .resume, .wait, .markAsUnblocked,
        .removeChild, .addReadyTask] : List Action)
      ({} : System) (fun system => decide (1 < system.otherObservations))
      (by decide +kernel : (executeAllowed step (fun _ _ => True)
        ({} : System) _).any _ = true)
  have observations := (holds system run).observations
  have twice : 1 < system.otherObservations := of_decide_eq_true twice
  omega

end Nanos6.Blocking
