import Nanos6.Executors.ThreadManager
import Nanos6.Foundation.Holding

/-!
# Every thread is in one place

A thread goes on by itself, or it is in a list of idle threads, or somebody is going
to resume it, or it has been resumed, or it has to wait for its task to be unblocked or
to be given out by the scheduler.  It is always in one of these places and never in
two, so no thread is resumed twice.  A thread whose task has been unblocked before it
blocks is where its task is, although it still runs.
-/

namespace Nanos6.ThreadManager

open Foundation

/-- What a thread itself shows of its place. -/
inductive Own where
  /-- It goes on by itself. -/
  | active
  /-- Its task is blocked. -/
  | waiting
  /-- Its task has been given to the scheduler, and not been given out by it. -/
  | ready
  /-- It has been resumed. -/
  | signaled
  deriving DecidableEq, Repr

def Worker.shows (worker : Worker) : Own → Bool
  | .active => worker.point.isActive
  | .waiting => worker.waiting
  | .ready => worker.ready
  | .signaled => worker.signaled

/-- The worker shows the given place, and no other one. -/
structure Worker.ShowsOnly (worker : Worker) (own : Option Own) : Prop where
  active : worker.point.isActive = decide (own = some .active)
  waiting : worker.waiting = decide (own = some .waiting)
  ready : worker.ready = decide (own = some .ready)
  signaled : worker.signaled = decide (own = some .signaled)

theorem Worker.showsOnly_iff {worker : Worker} {own : Option Own} :
    worker.ShowsOnly own ↔
      ∀ other, worker.shows other = true ↔ own = some other := by
  constructor
  · intro only other
    cases other with
    | active => simp [Worker.shows, only.active]
    | waiting => simp [Worker.shows, only.waiting]
    | ready => simp [Worker.shows, only.ready]
    | signaled => simp [Worker.shows, only.signaled]
  · intro shows
    have decided : ∀ other, worker.shows other = decide (own = some other) := by
      intro other
      rw [Bool.eq_iff_iff, shows]
      simp
    exact ⟨decided .active, decided .waiting, decided .ready,
      decided .signaled⟩

inductive Place where
  | own (own : Own)
  /-- In the list of idle threads of a node. -/
  | idle (node : Nat)
  /-- With a caller that is going to resume it. -/
  | caller (caller : CallerId)
  /-- With a thread that is going to switch to it. -/
  | replacement (thread : ThreadId)
  deriving DecidableEq, Repr

def State.holds (state : State) : Place → ThreadId → Prop
  | .own own, thread => (state.worker thread).shows own = true
  | .idle node, thread => thread ∈ state.idleThreads node
  | .caller caller, thread => (state.caller caller).thread = some thread
  | .replacement other, thread =>
      (state.worker other).point.replacement = some thread

/-- The thread is in one place, unless it has not been created or is `detached`: on
its way from one place to another. -/
def State.Locates (state : State) (detached : Option ThreadId)
    (thread : ThreadId) : Prop :=
  ∃ place, HeldBy state.holds thread place ∧
    (place = none ↔ state.totalThreads ≤ thread ∨ detached = some thread)

/-- The law of the places. -/
structure IsCoherent (state : State) (detached : Option ThreadId) : Prop where
  located : ∀ thread, state.Locates detached thread
  born : ∀ thread, detached = some thread → thread < state.totalThreads
  unborn : ∀ thread, state.totalThreads ≤ thread → state.worker thread = {}
  nodup : ∀ node, (state.idleThreads node).Nodup
  resumed : ∀ thread, (state.worker thread).cpuToBeResumedOn.isSome =
    (state.worker thread).signaled
  rests : ∀ node thread, thread ∈ state.idleThreads node →
    (state.worker thread).point.isResting = true
  selfless : ∀ thread, (state.worker thread).point.replacement ≠ some thread
  passed : state.resumptionFailed = false

theorem isCoherent_init : IsCoherent {} none where
  located := by
    intro thread
    refine ⟨none, ?_, by simp⟩
    intro place
    cases place with
    | own own => cases own <;> simp [State.holds, Worker.shows, Point.isActive]
    | idle => simp [State.holds]
    | caller => simp [State.holds, Caller.thread]
    | replacement => simp [State.holds, Point.replacement]
  born := by
    intro thread isDetached
    cases isDetached
  unborn := fun _ _ => rfl
  nodup := fun _ => List.nodup_nil
  resumed := fun _ => rfl
  rests := by
    intro node thread member
    cases member
  selfless := by
    intro thread same
    cases same
  passed := rfl

section Moves

variable {state next : State} {detached : Option ThreadId}
  {thread : ThreadId} {worker : Worker}

namespace State.Locates

/-- What does not touch the thread keeps its place. -/
theorem congr {detachedNext : Option ThreadId}
    (located : state.Locates detached thread)
    (same : ∀ place, next.holds place thread ↔ state.holds place thread)
    (total : next.totalThreads ≤ thread ↔ state.totalThreads ≤ thread)
    (way : detachedNext = some thread ↔ detached = some thread) :
    next.Locates detachedNext thread := by
  obtain ⟨place, held, nowhere⟩ := located
  exact ⟨place, held.congr same, by rw [nowhere, total, way]⟩

theorem heldBy (located : state.Locates detached thread) {place : Place}
    (holds : state.holds place thread) :
    HeldBy state.holds thread (some place) := by
  obtain ⟨held, isHeld, -⟩ := located
  rw [isHeld.eq_some holds] at isHeld
  exact isHeld

end State.Locates

namespace IsCoherent

theorem heldBy_of_holds (coherent : IsCoherent state detached) {place : Place}
    (holds : state.holds place thread) :
    HeldBy state.holds thread (some place) :=
  (coherent.located thread).heldBy holds

theorem born_of_holds (coherent : IsCoherent state detached) {place : Place}
    (holds : state.holds place thread) : thread < state.totalThreads := by
  obtain ⟨held, isHeld, nowhere⟩ := coherent.located thread
  rw [isHeld.eq_some holds] at nowhere
  by_contra unborn
  cases nowhere.mpr (Or.inl (Nat.le_of_not_lt unborn))

theorem ne_detached_of_holds (coherent : IsCoherent state detached)
    {place : Place} (holds : state.holds place thread) :
    detached ≠ some thread := by
  obtain ⟨held, isHeld, nowhere⟩ := coherent.located thread
  rw [isHeld.eq_some holds] at nowhere
  intro isDetached
  cases nowhere.mpr (Or.inr isDetached)

theorem not_holds_of_detached (coherent : IsCoherent state (some thread))
    (place : Place) : ¬ state.holds place thread := by
  intro holds
  exact coherent.ne_detached_of_holds holds rfl

theorem born_of_point (coherent : IsCoherent state detached)
    (born : (state.worker thread).point ≠ .unborn) :
    thread < state.totalThreads := by
  by_contra unborn
  rw [coherent.unborn thread (Nat.le_of_not_lt unborn)] at born
  exact born rfl

end IsCoherent

/-- A change of one thread that what is not about places allows. -/
structure Worker.Fits (worker : Worker) (state : State) (thread : ThreadId) :
    Prop where
  born : thread < state.totalThreads
  resumed : worker.cpuToBeResumedOn.isSome = worker.signaled
  rests : ∀ node, thread ∈ state.idleThreads node →
    worker.point.isResting = true
  selfless : worker.point.replacement ≠ some thread

theorem holds_setWorker {place : Place} {other : ThreadId}
    (own : other = thread → ∀ own,
      worker.shows own = (state.worker thread).shows own)
    (pointer : worker.point.replacement = some other ↔
      (state.worker thread).point.replacement = some other) :
    (state.setWorker thread worker).holds place other ↔
      state.holds place other := by
  cases place with
  | own shown =>
      change (Function.update state.worker thread worker other).shows shown =
        true ↔ _
      by_cases same : other = thread
      · rw [same, Function.update_self, own same]
        rfl
      · rw [Function.update_of_ne same]
        rfl
  | idle => exact Iff.rfl
  | caller => exact Iff.rfl
  | replacement holder =>
      change (Function.update state.worker thread worker holder).point.replacement
        = some other ↔ _
      by_cases same : holder = thread
      · rw [same, Function.update_self, pointer]
        rfl
      · rw [Function.update_of_ne same]
        rfl

namespace IsCoherent

/-- The part of the law that is not about places. -/
theorem setWorker {detachedNext : Option ThreadId}
    (coherent : IsCoherent state detached) (fits : worker.Fits state thread)
    (born : ∀ other, detachedNext = some other → other < state.totalThreads)
    (located : ∀ other,
      (state.setWorker thread worker).Locates detachedNext other) :
    IsCoherent (state.setWorker thread worker) detachedNext where
  located := located
  born := born
  unborn := by
    intro other unborn
    have different : other ≠ thread := by
      intro same
      rw [same] at unborn
      exact absurd fits.born (Nat.not_lt.mpr unborn)
    change Function.update state.worker thread worker other = {}
    rw [Function.update_of_ne different]
    exact coherent.unborn other unborn
  nodup := coherent.nodup
  resumed := by
    intro other
    change (Function.update state.worker thread worker other).cpuToBeResumedOn.isSome
      = (Function.update state.worker thread worker other).signaled
    by_cases same : other = thread
    · rw [same, Function.update_self]
      exact fits.resumed
    · rw [Function.update_of_ne same]
      exact coherent.resumed other
  rests := by
    intro node other member
    change (Function.update state.worker thread worker other).point.isResting =
      true
    by_cases same : other = thread
    · rw [same, Function.update_self]
      rw [same] at member
      exact fits.rests node member
    · rw [Function.update_of_ne same]
      exact coherent.rests node other member
  selfless := by
    intro other
    change (Function.update state.worker thread worker other).point.replacement ≠
      some other
    by_cases same : other = thread
    · rw [same, Function.update_self]
      exact fits.selfless
    · rw [Function.update_of_ne same]
      exact coherent.selfless other
  passed := coherent.passed

/-- A change that no place depends on. -/
theorem setWorker_same (coherent : IsCoherent state detached)
    (fits : worker.Fits state thread)
    (own : ∀ own, worker.shows own = (state.worker thread).shows own)
    (pointer : worker.point.replacement =
      (state.worker thread).point.replacement) :
    IsCoherent (state.setWorker thread worker) detached := by
  refine coherent.setWorker fits coherent.born ?_
  intro other
  refine (coherent.located other).congr (fun place => ?_) Iff.rfl Iff.rfl
  exact holds_setWorker (fun _ => own) (by rw [pointer])

/-- Only the thread itself has a thread that shows its place. -/
theorem elsewhere_of_shows (coherent : IsCoherent state detached) {own : Own}
    (shown : (state.worker thread).shows own = true) (place : Place)
    (elsewhere : ∀ own, place ≠ .own own) : ¬ state.holds place thread := by
  have held : HeldBy state.holds thread (some (.own own)) :=
    coherent.heldBy_of_holds shown
  exact held.not_holds (elsewhere own)

/-- Who has the thread, after a change of what it shows itself. -/
theorem heldBy_setWorker (fits : worker.Fits state thread)
    {after : Option Own}
    (elsewhere : ∀ place, (∀ own, place ≠ .own own) →
      ¬ state.holds place thread)
    (shows : worker.ShowsOnly after) :
    HeldBy (state.setWorker thread worker).holds thread
      (after.map Place.own) := by
  intro place
  have moved : ∀ own, after.map Place.own = some (.own own) ↔
      after = some own := by
    intro own
    cases after <;> simp
  have nowhere : (∀ own, place ≠ .own own) →
      after.map Place.own ≠ some place := by
    intro isElsewhere isPlace
    obtain ⟨own, -, isOwn⟩ := Option.map_eq_some_iff.mp isPlace
    exact isElsewhere own isOwn.symm
  cases place with
  | own own =>
      change (Function.update state.worker thread worker thread).shows own =
        true ↔ _
      rw [Function.update_self, Worker.showsOnly_iff.mp shows, moved]
  | idle node =>
      refine iff_of_false ?_ (nowhere (by simp))
      exact elsewhere (.idle node) (by simp)
  | caller caller =>
      refine iff_of_false ?_ (nowhere (by simp))
      exact elsewhere (.caller caller) (by simp)
  | replacement holder =>
      refine iff_of_false ?_ (nowhere (by simp))
      change ¬ (Function.update state.worker thread worker holder).point.replacement
        = some thread
      by_cases same : holder = thread
      · rw [same, Function.update_self]
        exact fits.selfless
      · rw [Function.update_of_ne same]
        exact elsewhere (.replacement holder) (by simp)

/-- The other threads do not see such a change. -/
theorem locates_setWorker (coherent : IsCoherent state detached)
    {detachedNext : Option ThreadId} {other : ThreadId}
    (different : other ≠ thread)
    (pointer : worker.point.replacement = some other ↔
      (state.worker thread).point.replacement = some other)
    (way : detachedNext = some other ↔ detached = some other) :
    (state.setWorker thread worker).Locates detachedNext other := by
  refine (coherent.located other).congr (fun place => ?_) Iff.rfl way
  exact holds_setWorker (fun isThread => absurd isThread different) pointer

/-- The thread shows another place of its own. -/
theorem moveOwn (coherent : IsCoherent state detached)
    (fits : worker.Fits state thread) {before after : Own}
    (shown : (state.worker thread).shows before = true)
    (shows : worker.ShowsOnly (some after))
    (pointer : worker.point.replacement =
      (state.worker thread).point.replacement) :
    IsCoherent (state.setWorker thread worker) detached := by
  have holds : state.holds (.own before) thread := shown
  refine coherent.setWorker fits coherent.born ?_
  intro other
  by_cases same : other = thread
  · rw [same]
    refine ⟨_, heldBy_setWorker fits
      (coherent.elsewhere_of_shows shown) shows, ?_⟩
    refine iff_of_false (by simp) ?_
    rintro (unborn | isDetached)
    · exact absurd fits.born (Nat.not_lt.mpr unborn)
    · exact coherent.ne_detached_of_holds holds isDetached
  · exact coherent.locates_setWorker same (by rw [pointer]) Iff.rfl

/-- The thread does not show its place any more. -/
theorem detachOwn (coherent : IsCoherent state none)
    (fits : worker.Fits state thread) {before : Own}
    (shown : (state.worker thread).shows before = true)
    (shows : worker.ShowsOnly none)
    (pointer : worker.point.replacement =
      (state.worker thread).point.replacement) :
    IsCoherent (state.setWorker thread worker) (some thread) := by
  refine coherent.setWorker fits ?_ ?_
  · intro other isThread
    cases isThread
    exact fits.born
  · intro other
    by_cases same : other = thread
    · rw [same]
      have held : HeldBy (state.setWorker thread worker).holds thread
          (Option.map Place.own none) :=
        heldBy_setWorker fits (coherent.elsewhere_of_shows shown) shows
      exact ⟨_, held, by simp⟩
    · refine coherent.locates_setWorker same (by rw [pointer]) ?_
      simp [Ne.symm same]

/-- The thread shows its place. -/
theorem attachOwn (coherent : IsCoherent state (some thread))
    (fits : worker.Fits state thread) {after : Own}
    (shows : worker.ShowsOnly (some after))
    (pointer : worker.point.replacement =
      (state.worker thread).point.replacement) :
    IsCoherent (state.setWorker thread worker) none := by
  refine coherent.setWorker fits (fun _ isNone => by cases isNone) ?_
  intro other
  by_cases same : other = thread
  · rw [same]
    refine ⟨_, heldBy_setWorker fits
      (fun place _ => coherent.not_holds_of_detached place) shows, ?_⟩
    refine iff_of_false (by simp) ?_
    rintro (unborn | isDetached)
    · exact absurd fits.born (Nat.not_lt.mpr unborn)
    · cases isDetached
  · refine coherent.locates_setWorker same (by rw [pointer]) ?_
    simp [Ne.symm same]

/-- The thread is going to resume a detached thread. -/
theorem attachReplacement {other : ThreadId}
    (coherent : IsCoherent state (some other))
    (fits : worker.Fits state thread)
    (own : ∀ own, worker.shows own = (state.worker thread).shows own)
    (before : (state.worker thread).point.replacement = none)
    (after : worker.point.replacement = some other) :
    IsCoherent (state.setWorker thread worker) none := by
  refine coherent.setWorker fits (fun _ isNone => by cases isNone) ?_
  intro tested
  by_cases same : tested = other
  · rw [same]
    refine ⟨some (.replacement thread), ?_, ?_⟩
    · intro place
      have absent := coherent.not_holds_of_detached place
      cases place with
      | own shown =>
          refine iff_of_false ?_ (by simp)
          change ¬ (Function.update state.worker thread worker other).shows
            shown = true
          by_cases isThread : other = thread
          · rw [isThread] at after
            exact absurd after fits.selfless
          · rw [Function.update_of_ne isThread]
            exact absent
      | idle node => exact iff_of_false absent (by simp)
      | caller caller => exact iff_of_false absent (by simp)
      | replacement holder =>
          change (Function.update state.worker thread worker
            holder).point.replacement = some other ↔ _
          by_cases isThread : holder = thread
          · rw [isThread, Function.update_self, after]
            simp
          · rw [Function.update_of_ne isThread]
            exact iff_of_false absent (by simp [Ne.symm isThread])
    · refine iff_of_false (by simp) ?_
      rintro (unborn | isDetached)
      · exact absurd (coherent.born other rfl) (Nat.not_lt.mpr unborn)
      · cases isDetached
  · refine (coherent.located tested).congr (fun place => ?_) Iff.rfl
      (by simp [Ne.symm same])
    refine holds_setWorker (fun _ => own) ?_
    rw [before, after]
    simp [Ne.symm same]

/-- The thread gives up the thread that it was going to resume. -/
theorem detachReplacement {other : ThreadId}
    (coherent : IsCoherent state none) (fits : worker.Fits state thread)
    (own : ∀ own, worker.shows own = (state.worker thread).shows own)
    (before : (state.worker thread).point.replacement = some other)
    (after : worker.point.replacement = none) :
    IsCoherent (state.setWorker thread worker) (some other) := by
  have holds : state.holds (.replacement thread) other := before
  have held := coherent.heldBy_of_holds holds
  refine coherent.setWorker fits ?_ ?_
  · intro tested isOther
    cases isOther
    exact coherent.born_of_holds holds
  · intro tested
    by_cases same : tested = other
    · rw [same]
      refine ⟨none, ?_, by simp⟩
      intro place
      refine iff_of_false ?_ (by simp)
      by_cases isHolder : place = .replacement thread
      · rw [isHolder]
        change ¬ (Function.update state.worker thread worker
          thread).point.replacement = some other
        rw [Function.update_self, after]
        simp
      · have absent := held.not_holds isHolder
        cases place with
        | own shown =>
            change ¬ (Function.update state.worker thread worker other).shows
              shown = true
            by_cases isThread : other = thread
            · rw [isThread] at before
              exact absurd before (coherent.selfless thread)
            · rw [Function.update_of_ne isThread]
              exact absent
        | idle node => exact absent
        | caller caller => exact absent
        | replacement holder =>
            change ¬ (Function.update state.worker thread worker
              holder).point.replacement = some other
            rw [Function.update_of_ne (by simpa using isHolder)]
            exact absent
    · refine (coherent.located tested).congr (fun place => ?_) Iff.rfl
        (by simp [Ne.symm same])
      refine holds_setWorker (fun _ => own) ?_
      rw [before, after]
      simp [Ne.symm same]

/-- What the law does not look at. -/
theorem reframe (coherent : IsCoherent state detached)
    (worker : next.worker = state.worker)
    (total : next.totalThreads = state.totalThreads)
    (idleThreads : next.idleThreads = state.idleThreads)
    (caller : next.caller = state.caller)
    (failed : next.resumptionFailed = state.resumptionFailed) :
    IsCoherent next detached where
  located := by
    intro thread
    refine (coherent.located thread).congr (fun place => ?_) (by rw [total])
      Iff.rfl
    cases place <;> simp only [State.holds, worker, idleThreads, caller]
  born := by
    rw [total]
    exact coherent.born
  unborn := by
    rw [total, worker]
    exact coherent.unborn
  nodup := by
    rw [idleThreads]
    exact coherent.nodup
  resumed := by
    rw [worker]
    exact coherent.resumed
  rests := by
    rw [worker, idleThreads]
    exact coherent.rests
  selfless := by
    rw [worker]
    exact coherent.selfless
  passed := by
    rw [failed]
    exact coherent.passed

section Callers

variable {caller : CallerId} {content : Caller}

theorem holds_setCaller {place : Place} {other : ThreadId}
    (same : content.thread = some other ↔
      (state.caller caller).thread = some other) :
    (state.setCaller caller content).holds place other ↔
      state.holds place other := by
  cases place with
  | own => exact Iff.rfl
  | idle => exact Iff.rfl
  | replacement => exact Iff.rfl
  | caller tested =>
      change (Function.update state.caller caller content tested).thread =
        some other ↔ _
      by_cases isCaller : tested = caller
      · rw [isCaller, Function.update_self, same]
        rfl
      · rw [Function.update_of_ne isCaller]
        rfl

theorem setCaller {detachedNext : Option ThreadId}
    (coherent : IsCoherent state detached)
    (born : ∀ other, detachedNext = some other → other < state.totalThreads)
    (located : ∀ other,
      (state.setCaller caller content).Locates detachedNext other) :
    IsCoherent (state.setCaller caller content) detachedNext where
  located := located
  born := born
  unborn := coherent.unborn
  nodup := coherent.nodup
  resumed := coherent.resumed
  rests := coherent.rests
  selfless := coherent.selfless
  passed := coherent.passed

theorem setCaller_same (coherent : IsCoherent state detached)
    (same : content.thread = (state.caller caller).thread) :
    IsCoherent (state.setCaller caller content) detached := by
  refine coherent.setCaller coherent.born ?_
  intro other
  refine (coherent.located other).congr (fun place => ?_) Iff.rfl Iff.rfl
  exact holds_setCaller (by rw [same])

/-- A caller gets a detached thread. -/
theorem attachCaller (coherent : IsCoherent state (some thread))
    (before : (state.caller caller).thread = none)
    (after : content.thread = some thread) :
    IsCoherent (state.setCaller caller content) none := by
  refine coherent.setCaller (fun _ isNone => by cases isNone) ?_
  intro tested
  by_cases same : tested = thread
  · rw [same]
    refine ⟨some (.caller caller), ?_, ?_⟩
    · intro place
      have absent := coherent.not_holds_of_detached place
      cases place with
      | own => exact iff_of_false absent (by simp)
      | idle => exact iff_of_false absent (by simp)
      | replacement => exact iff_of_false absent (by simp)
      | caller tested =>
          change (Function.update state.caller caller content tested).thread =
            some thread ↔ _
          by_cases isCaller : tested = caller
          · rw [isCaller, Function.update_self, after]
            simp
          · rw [Function.update_of_ne isCaller]
            exact iff_of_false absent (by simp [Ne.symm isCaller])
    · refine iff_of_false (by simp) ?_
      rintro (unborn | isDetached)
      · exact absurd (coherent.born thread rfl) (Nat.not_lt.mpr unborn)
      · cases isDetached
  · refine (coherent.located tested).congr (fun place => ?_) Iff.rfl
      (by simp [Ne.symm same])
    refine holds_setCaller ?_
    rw [before, after]
    simp [Ne.symm same]

/-- A caller gives up its thread. -/
theorem detachCaller (coherent : IsCoherent state none)
    (before : (state.caller caller).thread = some thread)
    (after : content.thread = none) :
    IsCoherent (state.setCaller caller content) (some thread) := by
  have holds : state.holds (.caller caller) thread := before
  have held := coherent.heldBy_of_holds holds
  refine coherent.setCaller ?_ ?_
  · intro tested isThread
    cases isThread
    exact coherent.born_of_holds holds
  · intro tested
    by_cases same : tested = thread
    · rw [same]
      refine ⟨none, ?_, by simp⟩
      intro place
      refine iff_of_false ?_ (by simp)
      by_cases isHolder : place = .caller caller
      · rw [isHolder]
        change ¬ (Function.update state.caller caller content caller).thread =
          some thread
        rw [Function.update_self, after]
        simp
      · have absent := held.not_holds isHolder
        cases place with
        | own => exact absent
        | idle => exact absent
        | replacement => exact absent
        | caller tested =>
            change ¬ (Function.update state.caller caller content
              tested).thread = some thread
            rw [Function.update_of_ne (by simpa using isHolder)]
            exact absent
    · refine (coherent.located tested).congr (fun place => ?_) Iff.rfl
        (by simp [Ne.symm same])
      refine holds_setCaller ?_
      rw [before, after]
      simp [Ne.symm same]

end Callers

/-! ### Idle threads -/

theorem addIdler (coherent : IsCoherent state (some thread))
    (rests : (state.worker thread).point.isResting = true) :
    IsCoherent (state.addIdler thread) none := by
  obtain ⟨node, isNode⟩ : ∃ node, node =
      (state.worker thread).originalNumaNode := ⟨_, rfl⟩
  have listed : ∀ tested other,
      other ∈ Function.update state.idleThreads node
        (thread :: state.idleThreads node) tested ↔
      (other = thread ∧ tested = node) ∨
        other ∈ state.idleThreads tested := by
    intro tested other
    by_cases isHere : tested = node
    · rw [isHere, Function.update_self]
      simp
    · rw [Function.update_of_ne isHere]
      simp [isHere]
  have absent : ∀ tested, thread ∉ state.idleThreads tested :=
    fun tested => coherent.not_holds_of_detached (.idle tested)
  have holds : ∀ tested other, (state.addIdler thread).holds (.idle tested)
      other ↔ (other = thread ∧ tested = node) ∨
        other ∈ state.idleThreads tested := by
    intro tested other
    rw [← listed, isNode]
    rfl
  exact
    { located := by
        intro tested
        by_cases same : tested = thread
        · rw [same]
          refine ⟨some (.idle node), ?_, ?_⟩
          · intro place
            have nobody := coherent.not_holds_of_detached place
            cases place with
            | own => exact iff_of_false nobody (by simp)
            | caller => exact iff_of_false nobody (by simp)
            | replacement => exact iff_of_false nobody (by simp)
            | idle other =>
                rw [holds]
                simp [absent, eq_comm]
          · refine iff_of_false (by simp) ?_
            rintro (unborn | isDetached)
            · exact absurd (coherent.born thread rfl) (Nat.not_lt.mpr unborn)
            · cases isDetached
        · refine (coherent.located tested).congr (fun place => ?_) Iff.rfl
            (by simp [Ne.symm same])
          cases place with
          | own => exact Iff.rfl
          | caller => exact Iff.rfl
          | replacement => exact Iff.rfl
          | idle other =>
              rw [holds]
              simp [same, State.holds]
      born := fun _ isNone => by cases isNone
      unborn := coherent.unborn
      nodup := by
        intro tested
        change (Function.update state.idleThreads _ _ tested).Nodup
        rw [← isNode]
        by_cases isHere : tested = node
        · rw [isHere, Function.update_self]
          exact List.nodup_cons.mpr ⟨absent node, coherent.nodup node⟩
        · rw [Function.update_of_ne isHere]
          exact coherent.nodup tested
      resumed := coherent.resumed
      rests := by
        intro tested other member
        rcases (holds tested other).mp member with ⟨isThread, -⟩ | before
        · rw [isThread]
          exact rests
        · exact coherent.rests tested other before
      selfless := coherent.selfless
      passed := by
        change (state.resumptionFailed || decide
          (thread ∈ state.idleThreads _)) = false
        rw [coherent.passed, ← isNode]
        simp [absent] }

theorem popIdleThread (coherent : IsCoherent state none) {node : Nat}
    {rest : List ThreadId}
    (listed : state.idleThreads node = thread :: rest) :
    IsCoherent (state.popIdleThread node thread rest) (some thread) := by
  have member : thread ∈ state.idleThreads node := by
    rw [listed]
    exact List.mem_cons_self
  have held : HeldBy state.holds thread (some (.idle node)) :=
    coherent.heldBy_of_holds member
  have distinct := coherent.nodup node
  rw [listed] at distinct
  obtain ⟨absent, restDistinct⟩ := List.nodup_cons.mp distinct
  have holds : ∀ tested other,
      (state.popIdleThread node thread rest).holds (.idle tested) other ↔
        other ∈ state.idleThreads tested ∧
          ¬ (other = thread ∧ tested = node) := by
    intro tested other
    change other ∈ Function.update state.idleThreads node rest tested ↔ _
    by_cases isHere : tested = node
    · rw [isHere, Function.update_self, listed]
      by_cases same : other = thread
      · rw [same]
        simp [absent]
      · simp [same]
    · rw [Function.update_of_ne isHere]
      simp [isHere]
  exact
    { located := by
        intro tested
        by_cases same : tested = thread
        · rw [same]
          refine ⟨none, ?_, by simp⟩
          intro place
          refine iff_of_false ?_ (by simp)
          by_cases isHolder : place = .idle node
          · rw [isHolder, holds]
            simp
          · have nobody := held.not_holds isHolder
            cases place with
            | own => exact nobody
            | caller => exact nobody
            | replacement => exact nobody
            | idle other =>
                rw [holds]
                exact fun isMember => nobody isMember.1
        · refine (coherent.located tested).congr (fun place => ?_) Iff.rfl
            (by simp [Ne.symm same])
          cases place with
          | own => exact Iff.rfl
          | caller => exact Iff.rfl
          | replacement => exact Iff.rfl
          | idle other =>
              rw [holds]
              simp [same, State.holds]
      born := by
        intro tested isThread
        cases isThread
        have isIdle : state.holds (.idle node) thread := member
        exact coherent.born_of_holds isIdle
      unborn := coherent.unborn
      nodup := by
        intro tested
        change (Function.update state.idleThreads node rest tested).Nodup
        by_cases isHere : tested = node
        · rw [isHere, Function.update_self]
          exact restDistinct
        · rw [Function.update_of_ne isHere]
          exact coherent.nodup tested
      resumed := coherent.resumed
      rests := fun tested other isMember =>
        coherent.rests tested other ((holds tested other).mp isMember).1
      selfless := coherent.selfless
      passed := coherent.passed }

/-- A new thread is detached. -/
theorem createWorkerThread (coherent : IsCoherent state none)
    (numaNode : CPUId → Nat) (cpu : CPUId) :
    IsCoherent (state.createWorkerThread numaNode cpu)
      (some state.totalThreads) := by
  have fresh : state.worker state.totalThreads = {} :=
    coherent.unborn state.totalThreads (Nat.le_refl _)
  have counted : IsCoherent
      { state with totalThreads := state.totalThreads + 1 }
      (some state.totalThreads) :=
    { located := by
        intro thread
        obtain ⟨place, held, nowhere⟩ := coherent.located thread
        refine ⟨place, held.congr (fun place => by cases place <;> rfl), ?_⟩
        rw [nowhere]
        change state.totalThreads ≤ thread ∨ none = some thread ↔
          state.totalThreads + 1 ≤ thread ∨ some state.totalThreads = some thread
        rw [Option.some.injEq]
        simp only [reduceCtorEq, or_false]
        omega
      born := by
        intro thread isNew
        cases isNew
        exact Nat.lt_succ_self _
      unborn := fun thread unborn =>
        coherent.unborn thread (Nat.le_of_succ_le unborn)
      nodup := coherent.nodup
      resumed := coherent.resumed
      rests := coherent.rests
      selfless := coherent.selfless
      passed := coherent.passed }
  refine counted.setWorker_same ⟨?_, rfl, ?_, ?_⟩ ?_ ?_
  · exact Nat.lt_succ_self _
  · intro node _
    rfl
  · intro same
    cases same
  · intro own
    change _ = (state.worker state.totalThreads).shows own
    rw [fresh]
    cases own <;> rfl
  · change _ = (state.worker state.totalThreads).point.replacement
    rw [fresh]
    rfl

end IsCoherent

end Moves

end Nanos6.ThreadManager
