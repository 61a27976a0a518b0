import Nanos6.Foundation.LabelledRun
import Nanos6.Reductions.Combination

/-!
# Runs up to the report of a task

The predecessors of a task count the accesses that hold it back and the guard
of its registration, so a task is reported only when all its accesses are
satisfied.  The invariant adds that every access that closes a reduction has
been combined, apart from the one on which a thread is acting.
-/

namespace Nanos6.Combination

open Foundation

/-- The predecessors that the registration of the task holds. -/
def State.guard (state : State) : Int :=
  if state.isRegistering then 2 else 0

/-- The predecessor that the handling in progress has still to take back. -/
def State.owed (state : State) : Int :=
  indicator (state.handling.any fun handling =>
    decide (handling.point = .decreasePredecessors) && handling.releases)

/-- The task is known to be ready, to its registering thread or to a thread
that has released its lock. -/
def State.IsReported (state : State) : Prop :=
  state.readyReports ≠ [] ∨ 0 < state.satisfiedOriginators

/-- Nothing holds the task back. -/
structure State.Free (state : State) : Prop where
  registered : state.isRegistering = false
  enforces : ∀ piece ∈ state.accesses.pieces,
    piece.value.enforcesDependency = false
  awaits : ∀ piece ∈ state.accesses.pieces,
    Combination.awaitsCombination piece.value = false

/-- The handling in progress acts on an access of the task. -/
structure State.Handles (state : State) (handling : Handling) : Prop where
  member : ⟨handling.region, handling.access⟩ ∈ state.accesses.pieces
  initial : WellFormed handling.initial
  registered : handling.access.registered = true
  progress : Progress handling.initial handling.access

structure Inv (state : State) : Prop where
  wellFormed : ∀ piece ∈ state.accesses.pieces, WellFormed piece.value
  anchored : ∀ piece ∈ state.accesses.pieces, piece.value.IsAnchored
  registered : state.isRegistering = false →
    ∀ piece ∈ state.accesses.pieces, piece.value.registered = true
  counted : state.counters.predecessorCount =
    state.guard + state.accesses.countPieces DataAccess.isEnforcing +
      state.owed
  handles : ∀ handling, state.handling = some handling →
    state.Handles handling
  combined : ∀ address access info,
    state.accesses.lookup address = some access →
    access.type ≠ .reduction → access.closesPreviousReduction = true →
    access.previousReductionInfo = some info →
      state.HasCombined info address ∨
        ∃ handling, state.handling = some handling ∧
          address ∈ handling.region ∧ handling.point ≠ .propagate ∧
          handling.initial.closesPreviousReduction = false
  reported : state.IsReported → state.Free
  originator : ∀ handling, state.handling = some handling →
    handling.isSatisfiedOriginator = true → state.Free
  nothingLeft : state.IsReported → ∀ handling,
    state.handling = some handling → handling.point ≠ .propagate →
      IsUse handling.access →
        handling.initial.closesPreviousReduction =
          handling.access.closesPreviousReduction

/-- The property that the invariant is for. -/
theorem Inv.combinedBeforeUse {state : State} (inv : Inv state) :
    CombinedBeforeUse state := by
  intro ready address access found use
  have reported : state.IsReported := Or.inl ready
  have free := inv.reported reported
  obtain ⟨piece, member, inside, rfl⟩ :=
    state.accesses.lookup_eq_some.mp found
  have wellFormed := inv.wellFormed piece member
  have notEnforcing := free.enforces piece member
  refine ⟨received_of_satisfied
    (satisfied_of_not_enforces wellFormed use notEnforcing), ?_⟩
  intro info previous
  have closes : piece.value.closesPreviousReduction = true := by
    rw [closes_of_ready wellFormed use notEnforcing (free.awaits piece member),
      previous]
    rfl
  rcases inv.combined address piece.value info found use.2 closes previous with
    combined | ⟨handling, active, inRegion, before, opened⟩
  · exact combined
  · have held := inv.handles handling active
    have same : handling.access = piece.value := by
      have also := state.accesses.lookup_of_mem held.member inRegion
      rw [found] at also
      exact (Option.some.inj also).symm
    rw [← same] at use closes
    have equal := inv.nothingLeft reported handling active before use
    rw [opened, closes] at equal
    cases equal

/-! ## Changing an access -/

section Change

variable {state : State} {thread : Thread} {change : Change}
  {region : DataAccessRegion} {piece : Piece DataAccess}

theorem mayChange_cases (may : mayChange state thread change region piece) :
    (change = .setRegistered ∨ piece.value.registered = true) ∧
      (piece.sides region ≠ 0 → piece.value.registered = true) ∧
      change.setter.assertion piece.value = true ∧
      (thread = .registering → state.isRegistering = true) ∧
      (change = .setRegistered → thread = .registering) := by
  simp only [mayChange, Bool.and_eq_true, Bool.or_eq_true, beq_iff_eq,
    bne_iff_ne, Bool.not_eq_true'] at may
  obtain ⟨⟨⟨⟨registering, linking⟩, reached⟩, whole⟩, asserted⟩ := may
  refine ⟨reached, whole.resolve_left, asserted, ?_, ?_⟩
  · exact fun isRegistering =>
      registering.resolve_left fun differs => differs isRegistering
  · intro first
    refine linking.resolve_left ?_
    simp [first, Change.isLinking]

/-- The predecessors follow the accesses; what the changed access stops to
enforce is owed. -/
theorem predecessorCount_changeAccess
    (member : piece ∈ state.accesses.pieces)
    (meets : piece.interval.Meets region)
    (registeredNow : (change.setter.apply piece.value).registered = true)
    (progress : Progress piece.value (change.setter.apply piece.value))
    (first : piece.value.registered = false → change = .setRegistered)
    (whole : piece.sides region ≠ 0 → piece.value.registered = true) :
    let access := change.setter.apply piece.value
    ((changeAccess state thread change region
        piece).counters.predecessorCount : Int) +
        state.accesses.countPieces DataAccess.isEnforcing =
      state.counters.predecessorCount +
        (state.accesses.replace piece region
          (some access)).countPieces DataAccess.isEnforcing +
        indicator (piece.value.enforcesDependency !=
          access.enforcesDependency && !access.enforcesDependency) := by
  intro access
  have replaced := state.accesses.countPieces_replace member meets
    (some access) DataAccess.isEnforcing
  have fragmented := (follow_iterate_setUpNewFragment state.parent
    piece.interval state.counters (piece.sides region)
    whole).predecessorCount
  rw [Option.elim_some] at replaced
  cases before : piece.value.registered with
  | true =>
      have counters :
          (changeAccess state thread change region piece).counters =
            (setUpNewFragment state.parent piece.value
              piece.interval)^[piece.sides region] state.counters := by
        simp [changeAccess, handleRegistration, DataAccessStatusEffects.of,
          before, registeredNow]
      rw [counters, fragmented]
      have monotone := progress.enforces
      have enforcing : access.isEnforcing = access.enforcesDependency := by
        simp [DataAccess.isEnforcing, access, registeredNow]
      have enforced :
          piece.value.isEnforcing = piece.value.enforcesDependency := by
        simp [DataAccess.isEnforcing, before]
      rw [enforcing, enforced] at replaced
      rw [enforced]
      cases now : access.enforcesDependency with
      | true =>
          rw [now, monotone now] at replaced
          rw [monotone now]
          simp [indicator] at replaced ⊢
          omega
      | false =>
          rw [now] at replaced
          cases earlier : piece.value.enforcesDependency <;>
            rw [earlier] at replaced <;>
            simp [indicator] at replaced ⊢ <;>
            omega
  | false =>
      have isFirst := first before
      have sides : piece.sides region = 0 := by
        by_contra parts
        rw [whole parts] at before
        cases before
      have same :
          access.enforcesDependency = piece.value.enforcesDependency := by
        simp only [access, isFirst]
        rfl
      have enforcing : access.isEnforcing = access.enforcesDependency := by
        simp [DataAccess.isEnforcing, access, registeredNow]
      have enforced : piece.value.isEnforcing = false := by
        simp [DataAccess.isEnforcing, before]
      rw [enforcing, enforced, sides] at replaced
      have counters :
          (changeAccess state thread change region
              piece).counters.predecessorCount =
            state.counters.predecessorCount +
              indicator access.enforcesDependency := by
        simp only [changeAccess, handleRegistration,
          DataAccessStatusEffects.of, before, registeredNow, sides,
          Function.iterate_zero, id_eq]
        cases enforces :
            (change.setter.apply piece.value).enforcesDependency <;>
          cases removable : piece.value.isRemovable <;>
          simp [access, enforces, indicator, Counters.increasePredecessors,
            Counters.countObject, Counters.increaseRemovalBlockingCount] <;>
          split <;> simp
      rw [same] at replaced
      rw [counters, same]
      cases now : piece.value.enforcesDependency <;>
        rw [now] at replaced <;>
        simp [indicator] at replaced ⊢ <;>
        omega

/-- The values after a change are old ones or the changed one. -/
theorem value_changeAccess (member : piece ∈ state.accesses.pieces)
    {part : Piece DataAccess}
    (partMember : part ∈
      (changeAccess state thread change region piece).accesses.pieces) :
    (∃ other ∈ state.accesses.pieces, part.value = other.value) ∨
      part.value = change.setter.apply piece.value :=
  (state.accesses.value_replace member partMember).imp_right
    fun same => (Option.some.inj same).symm

theorem State.Free.changeAccess (free : state.Free)
    (member : piece ∈ state.accesses.pieces)
    (wellFormed : WellFormed piece.value)
    (progress : Progress piece.value (change.setter.apply piece.value)) :
    (Combination.changeAccess state thread change region piece).Free := by
  have notEnforcing := free.enforces piece member
  refine ⟨free.registered, ?_, ?_⟩
  · intro part partMember
    rcases value_changeAccess member partMember with
      ⟨other, otherMember, same⟩ | same
    · rw [same]
      exact free.enforces other otherMember
    · rw [same]
      cases enforces :
          (change.setter.apply piece.value).enforcesDependency with
      | false => rfl
      | true => exact (progress.enforces enforces).symm.trans notEnforcing
  · intro part partMember
    rcases value_changeAccess member partMember with
      ⟨other, otherMember, same⟩ | same
    · rw [same]
      exact free.awaits other otherMember
    · rw [same]
      exact progress.awaits wellFormed notEnforcing
        (free.awaits piece member)

theorem Inv.changeAccess (inv : Inv state) (idle : state.handling = none)
    (member : piece ∈ state.accesses.pieces)
    (meets : piece.interval.Meets region)
    (may : mayChange state thread change region piece = true) :
    Inv (Combination.changeAccess state thread change region piece) := by
  obtain ⟨reached, whole, asserted, registering, linking⟩ :=
    mayChange_cases may
  have wellFormed := inv.wellFormed piece member
  have formed := Change.registered wellFormed reached asserted
  have progress := Change.progress wellFormed asserted
  refine
    { wellFormed := ?_
      anchored := ?_
      registered := ?_
      counted := ?_
      handles := ?_
      combined := ?_
      reported := fun reported =>
        (inv.reported reported).changeAccess member wellFormed progress
      originator := ?_
      nothingLeft := ?_ }
  · intro part partMember
    rcases value_changeAccess member partMember with
      ⟨other, otherMember, same⟩ | same
    · rw [same]
      exact inv.wellFormed other otherMember
    · rw [same]
      exact formed.toWellFormed
  · intro part partMember
    rcases value_changeAccess member partMember with
      ⟨other, otherMember, same⟩ | same
    · rw [same]
      exact inv.anchored other otherMember
    · rw [same]
      exact progress.anchored (inv.anchored piece member)
  · intro done part partMember
    rcases value_changeAccess member partMember with
      ⟨other, otherMember, same⟩ | same
    · rw [same]
      exact inv.registered done other otherMember
    · rw [same]
      exact formed.registered
  · have counted := inv.counted
    have settled : state.owed = 0 := by
      simp [State.owed, idle, indicator]
    have followed :
        (Combination.changeAccess state thread change region
          piece).counters.predecessorCount + _ = _ :=
      predecessorCount_changeAccess member meets formed.registered progress
        (fun fresh => reached.resolve_right (by simp [fresh])) whole
    have owed : (Combination.changeAccess state thread change region piece).owed =
        indicator (piece.value.enforcesDependency !=
          (change.setter.apply piece.value).enforcesDependency &&
          !(change.setter.apply piece.value).enforcesDependency) := by
      simp [State.owed, Combination.changeAccess, Handling.releases]
    have sameGuard :
        (Combination.changeAccess state thread change region piece).guard = state.guard :=
      rfl
    have sameAccesses :
        (Combination.changeAccess state thread change region piece).accesses =
          state.accesses.replace piece region
            (some (change.setter.apply piece.value)) :=
      rfl
    rw [owed, sameGuard, sameAccesses]
    omega
  · rintro handling active
    cases active
    refine ⟨?_, wellFormed, formed.registered, progress⟩
    refine (state.accesses.mem_replace member).mpr (Or.inl ?_)
    simp [Piece.split, meets]
  · intro address access info found other closes previous
    change (state.accesses.replace piece region _).lookup address = _ at found
    rw [state.accesses.lookup_replace member] at found
    split at found
    · rename_i inside
      cases found
      have beforeFound := state.accesses.lookup_of_mem member inside.1
      have sameType : piece.value.type ≠ .reduction := by
        rw [← progress.type]
        exact other
      cases opened : piece.value.closesPreviousReduction with
      | true =>
          have kept :=
            progress.closes wellFormed formed.toWellFormed sameType opened
          rw [kept.2] at previous
          rcases inv.combined address piece.value info beforeFound sameType
              opened previous with combined | ⟨handling, active, _⟩
          · exact Or.inl combined
          · rw [idle] at active
            cases active
      | false =>
          exact Or.inr ⟨_, rfl, Interval.mem_inter.mpr inside, by simp,
            opened⟩
    · rcases inv.combined address access info found other closes previous with
        combined | ⟨handling, active, _⟩
      · exact Or.inl combined
      · rw [idle] at active
        cases active
  · rintro handling active originator
    cases active
    cases originator
  · rintro reported handling active _ use
    cases active
    have free := inv.reported reported
    exact progress.closes_iff wellFormed formed.toWellFormed
      (progress.isUse.mp use) (free.enforces piece member)
      (free.awaits piece member)

end Change

/-! ## The rest of the handling -/

section Handling

variable {state : State} {handling : Handling}

/-- The decrement answers that the task becomes ready only when it takes the
last predecessor. -/
theorem handleDependency_eq (state : State) (handling : Handling) :
    handleDependency (.of state.parent handling.initial)
        (.of state.parent handling.access) state.counters =
      if handling.releases then state.counters.decreasePredecessors 1
      else (state.counters, false) :=
  rfl

theorem owed_eq (active : state.handling = some handling) :
    state.owed =
      indicator (decide (handling.point = .decreasePredecessors) &&
        handling.releases) := by
  simp [State.owed, active]

/-- Without predecessors nothing holds the task back. -/
theorem State.free_of_none (registered :
      ∀ piece ∈ state.accesses.pieces, piece.value.registered = true)
    (none : state.accesses.countPieces DataAccess.isEnforcing = 0)
    (settled : state.awaitsCombination = false) :
    ({ state with isRegistering := false } : State).Free := by
  refine ⟨rfl, ?_, ?_⟩
  · intro piece member
    have notCounted : ¬ DataAccess.isEnforcing piece.value = true := by
      intro counted
      have positive := state.accesses.countPieces_pos member counted
      omega
    simpa [DataAccess.isEnforcing, registered piece member] using notCounted
  · intro piece member
    simpa using List.any_eq_false.mp settled piece member

theorem indicator_nonneg (condition : Bool) : 0 ≤ indicator condition := by
  cases condition <;> decide

theorem Inv.decreasePredecessors (inv : Inv state)
    (active : state.handling = some handling)
    (here : handling.point = .decreasePredecessors)
    (permitted : Permitted state .decreasePredecessors) :
    Inv (Combination.decreasePredecessors state handling) := by
  have counted := inv.counted
  rw [owed_eq active, here] at counted
  have nowOwed :
      (Combination.decreasePredecessors state handling).owed = 0 := by
    simp [State.owed, Combination.decreasePredecessors, indicator]
  refine
    { wellFormed := inv.wellFormed
      anchored := inv.anchored
      registered := inv.registered
      counted := ?_
      handles := ?_
      combined := ?_
      reported := fun reported =>
        { inv.reported reported with }
      originator := ?_
      nothingLeft := ?_ }
  · rw [nowOwed]
    change (handleDependency _ _ _).1.predecessorCount = state.guard +
      state.accesses.countPieces DataAccess.isEnforcing + 0
    rw [handleDependency_eq]
    cases releases : handling.releases <;>
      simp [releases, indicator, Counters.decreasePredecessors] at counted ⊢ <;>
      omega
  · rintro _ ⟨⟩
    exact { inv.handles handling active with }
  · intro address access info found other closes previous
    rcases inv.combined address access info found other closes previous with
      combined | ⟨also, activeAlso, inRegion, _, opened⟩
    · exact Or.inl combined
    · rw [active] at activeAlso
      cases activeAlso
      exact Or.inr ⟨_, rfl, inRegion, by simp, opened⟩
  · rintro _ ⟨⟩ originator
    change (handleDependency _ _ _).2 = true at originator
    rw [handleDependency_eq] at originator
    cases releases : handling.releases with
    | false =>
        rw [releases] at originator
        cases originator
    | true =>
        rw [releases] at originator counted
        have last : state.counters.predecessorCount = 1 := by
          have zero : state.counters.predecessorCount - 1 = 0 := by
            simpa [Counters.decreasePredecessors] using originator
          omega
        have settled : state.awaitsCombination = false := by
          simpa [Permitted, permits, active, releases, last] using permitted
        have done : state.isRegistering = false := by
          cases registering : state.isRegistering with
          | false => rfl
          | true =>
              simp [State.guard, registering, indicator] at counted
              omega
        have none :
            state.accesses.countPieces DataAccess.isEnforcing = 0 := by
          simp [State.guard, done, indicator] at counted
          omega
        exact
          { State.free_of_none (inv.registered done) none settled with
            registered := done }
  · rintro reported _ ⟨⟩ _ use
    exact inv.nothingLeft reported handling active (by simp [here]) use

theorem Inv.combineRegion (inv : Inv state)
    (active : state.handling = some handling)
    (here : handling.point = .combineRegion) :
    Inv (Combination.combineRegion state handling) := by
  have counted := inv.counted
  rw [owed_eq active, here] at counted
  have nowOwed : (Combination.combineRegion state handling).owed = 0 := by
    simp [State.owed, Combination.combineRegion, indicator]
  have held := inv.handles handling active
  refine
    { wellFormed := inv.wellFormed
      anchored := inv.anchored
      registered := inv.registered
      counted := ?_
      handles := ?_
      combined := ?_
      reported := fun reported =>
        { inv.reported reported with }
      originator := ?_
      nothingLeft := ?_ }
  · rw [nowOwed]
    change state.counters.predecessorCount = state.guard +
      state.accesses.countPieces DataAccess.isEnforcing + 0
    simpa [indicator] using counted
  · rintro _ ⟨⟩
    exact { held with }
  · intro address access info found other closes previous
    refine Or.inl ?_
    rcases inv.combined address access info found other closes previous with
      ⟨region, logged, inside⟩ | ⟨also, activeAlso, inRegion, _, opened⟩
    · exact ⟨region, List.mem_append_left _ logged, inside⟩
    · rw [active] at activeAlso
      cases activeAlso
      have same : handling.access = access := by
        have lookedUp := state.accesses.lookup_of_mem held.member inRegion
        exact Option.some.inj (lookedUp.symm.trans found)
      refine ⟨handling.region, List.mem_append_right _ ?_, inRegion⟩
      have combines : handling.combines = true := by
        simp [Handling.combines, opened, same, closes]
      simp [combines, same, previous]
  · rintro _ ⟨⟩ originator
    exact { inv.originator handling active originator with }
  · rintro _ _ ⟨⟩ early
    exact absurd rfl early

/-- The rest of the handling leaves the access in its map, with at most other
CPUs and the mark that it has been discounted. -/
theorem access_propagate (held : state.Handles handling)
    (wellFormed : WellFormed handling.access)
    (anchored : handling.access.IsAnchored) :
    ∃ cpus discounted,
      (handleDataAccessStatusChanges (.of state.parent handling.initial)
          (.of state.parent handling.access) handling.access handling.region
          state.task state.counters).access =
        some
          { handling.access with
            reductionCpuSet := cpus
            hasBeenDiscounted := discounted } := by
  obtain ⟨cpus, left⟩ := access_handleDataAccessStatusChanges
    (.of state.parent handling.initial) (.of state.parent handling.access)
    handling.access handling.region state.task state.counters
  refine ⟨cpus, _, left.trans (if_neg ?_)⟩
  intro gone
  simp only [DataAccessStatusEffects.of, Bool.and_eq_true, bne_iff_ne,
    Bool.not_eq_true'] at gone
  obtain ⟨⟨_, differs⟩, unlinked⟩ := gone
  have removable : handling.access.isRemovable = true := by
    cases now : handling.access.isRemovable with
    | true => rfl
    | false =>
        rw [now] at differs
        have before : handling.initial.isRemovable = true := by
          simpa using differs
        exact (held.progress.removable before).symm.trans now |>.symm
  have linked := hasNext_of_removable
    { wellFormed with registered := held.registered } anchored removable
  rw [unlinked] at linked
  cases linked

theorem Inv.propagate (inv : Inv state)
    (active : state.handling = some handling)
    (here : handling.point = .propagate) :
    Inv (Combination.propagate state handling) := by
  have counted := inv.counted
  rw [owed_eq active, here] at counted
  have held := inv.handles handling active
  have wellFormed := inv.wellFormed _ held.member
  have anchored := inv.anchored _ held.member
  obtain ⟨cpus, discounted, left⟩ :=
    access_propagate held wellFormed anchored
  have accesses : (Combination.propagate state handling).accesses =
      state.accesses.replace ⟨handling.region, handling.access⟩
        handling.region
        (some
          { handling.access with
            reductionCpuSet := cpus
            hasBeenDiscounted := discounted }) := by
    rw [← left]
    rfl
  have values : ∀ part ∈
      (Combination.propagate state handling).accesses.pieces,
      (∃ other ∈ state.accesses.pieces, part.value = other.value) ∨
        part.value =
          { handling.access with
            reductionCpuSet := cpus
            hasBeenDiscounted := discounted } := by
    intro part partMember
    rw [accesses] at partMember
    exact (state.accesses.value_replace held.member partMember).imp_right
      fun same => (Option.some.inj same).symm
  have stillFree : state.Free →
      (Combination.propagate state handling).Free := by
    intro free
    refine ⟨free.registered, ?_, ?_⟩
    · intro part partMember
      rcases values part partMember with ⟨other, otherMember, same⟩ | same
      · rw [same]
        exact free.enforces other otherMember
      · rw [same]
        exact free.enforces _ held.member
    · intro part partMember
      rcases values part partMember with ⟨other, otherMember, same⟩ | same
      · rw [same]
        exact free.awaits other otherMember
      · rw [same]
        exact free.awaits _ held.member
  refine
    { wellFormed := ?_
      anchored := ?_
      registered := ?_
      counted := ?_
      handles := fun _ none => by cases none
      combined := ?_
      reported := ?_
      originator := fun _ none => by cases none
      nothingLeft := fun _ _ none => by cases none }
  · intro part partMember
    rcases values part partMember with ⟨other, otherMember, same⟩ | same
    · rw [same]
      exact inv.wellFormed other otherMember
    · rw [same]
      exact { wellFormed with }
  · intro part partMember
    rcases values part partMember with ⟨other, otherMember, same⟩ | same
    · rw [same]
      exact inv.anchored other otherMember
    · rw [same]
      exact anchored
  · intro done part partMember
    rcases values part partMember with ⟨other, otherMember, same⟩ | same
    · rw [same]
      exact inv.registered done other otherMember
    · rw [same]
      exact held.registered
  · have unchanged := (follow_handleRemoval
      (.of state.parent handling.initial) (.of state.parent handling.access)
      handling.access state.task state.counters
      held.progress.removable).predecessorCount
    have sameCount :
        (Combination.propagate state handling).accesses.countPieces
            DataAccess.isEnforcing =
          state.accesses.countPieces DataAccess.isEnforcing := by
      rw [accesses]
      exact state.accesses.countPieces_replace_same held.member rfl
    have nothing : (Combination.propagate state handling).owed = 0 := rfl
    have counters : (Combination.propagate state handling).counters =
        (handleRemoval (.of state.parent handling.initial)
          (.of state.parent handling.access) handling.access state.task
          state.counters).1 :=
      rfl
    have sameGuard :
        (Combination.propagate state handling).guard = state.guard :=
      rfl
    rw [counters, sameCount, nothing, sameGuard, unchanged]
    simpa [indicator] using counted
  · intro address access info found other closes previous
    refine Or.inl ?_
    have earlier : ∃ before,
        state.accesses.lookup address = some before ∧
          before.type = access.type ∧
          before.closesPreviousReduction =
            access.closesPreviousReduction ∧
          before.previousReductionInfo = access.previousReductionInfo := by
      rw [accesses, state.accesses.lookup_replace held.member] at found
      split at found
      · rename_i inside
        cases found
        exact ⟨_, state.accesses.lookup_of_mem held.member inside.1, rfl, rfl,
          rfl⟩
      · exact ⟨access, found, rfl, rfl, rfl⟩
    obtain ⟨before, foundBefore, sameType, sameCloses, samePrevious⟩ := earlier
    rw [← sameType] at other
    rw [← sameCloses] at closes
    rw [← samePrevious] at previous
    rcases inv.combined address before info foundBefore other closes
        previous with combined | ⟨also, activeAlso, _, early, _⟩
    · exact combined
    · rw [active] at activeAlso
      cases activeAlso
      exact absurd here early
  · intro reported
    cases originator : handling.isSatisfiedOriginator with
    | true => exact stillFree (inv.originator handling active originator)
    | false =>
        refine stillFree (inv.reported ?_)
        simpa [State.IsReported, Combination.propagate, originator] using
          reported

theorem Inv.processSatisfiedOriginators (inv : Inv state)
    (waiting : 0 < state.satisfiedOriginators) :
    Inv
      { state with
        satisfiedOriginators := state.satisfiedOriginators - 1
        readyReports := state.readyReports ++ [.satisfiedOriginator] } where
  wellFormed := inv.wellFormed
  anchored := inv.anchored
  registered := inv.registered
  counted := inv.counted
  handles := fun handling active => { inv.handles handling active with }
  combined := inv.combined
  reported := fun _ => { inv.reported (Or.inr waiting) with }
  originator := fun handling active originator =>
    { inv.originator handling active originator with }
  nothingLeft := fun _ => inv.nothingLeft (Or.inr waiting)

end Handling

/-- The guard of the registration is dropped.  If that takes the last
predecessors, no access holds the task back and no thread is about to
combine. -/
theorem Inv.returnFromRegistration {state : State} (inv : Inv state)
    (may : mayReturn state = true)
    (permitted : Permitted state .returnFromRegistration) :
    Inv (Combination.returnFromRegistration state) := by
  simp only [mayReturn, Bool.and_eq_true, List.all_eq_true] at may
  obtain ⟨⟨registering, _⟩, allRegistered⟩ := may
  have counted := inv.counted
  have guarded : state.guard = 2 := by simp [State.guard, registering]
  rw [guarded] at counted
  have unreported : ¬ state.IsReported := by
    intro reported
    have done := (inv.reported reported).registered
    rw [registering] at done
    cases done
  have unreportedNow :
      (Combination.returnFromRegistration state).IsReported →
        state.counters.predecessorCount = 2 := by
    intro reported
    by_contra more
    refine unreported ?_
    have notZero : ¬ state.counters.predecessorCount - 2 = 0 := by omega
    simpa [State.IsReported, Combination.returnFromRegistration,
      Counters.decreasePredecessors, notZero] using reported
  have owedNonneg : 0 ≤ state.owed := indicator_nonneg _
  have last : state.counters.predecessorCount = 2 →
      state.accesses.countPieces DataAccess.isEnforcing = 0 ∧
        state.awaitsCombination = false ∧ state.isCombining = false := by
    intro two
    have settled : (state.awaitsCombination || state.isCombining) = false := by
      simpa [Permitted, permits, two] using permitted
    simp only [Bool.or_eq_false_iff] at settled
    exact ⟨by omega, settled.1, settled.2⟩
  have free : state.counters.predecessorCount = 2 →
      (Combination.returnFromRegistration state).Free := by
    intro two
    obtain ⟨none, settled, _⟩ := last two
    exact { State.free_of_none allRegistered none settled with }
  refine
    { wellFormed := inv.wellFormed
      anchored := inv.anchored
      registered := fun _ => allRegistered
      counted := ?_
      handles := fun handling active => { inv.handles handling active with }
      combined := inv.combined
      reported := fun reported => free (unreportedNow reported)
      originator := ?_
      nothingLeft := ?_ }
  · change state.counters.predecessorCount - 2 = 0 +
      state.accesses.countPieces DataAccess.isEnforcing + state.owed
    omega
  · intro handling active originator
    have done := (inv.originator handling active originator).registered
    rw [registering] at done
    cases done
  · intro reported handling active early use
    have combining := (last (unreportedNow reported)).2.2
    change state.handling = some handling at active
    have same : handling.combines = false := by
      simpa [State.isCombining, active, early, use] using combining
    simpa [Handling.combines] using same

theorem Inv.step {state next : State} (inv : Inv state) {action : Action}
    (permitted : Permitted state action)
    (taken : step state action = some next) : Inv next := by
  cases action with
  | change thread change region =>
      simp only [Combination.step] at taken
      split at taken
      · cases taken
      · rename_i idle
        split at taken
        · cases taken
        · rename_i piece found
          split at taken
          · rename_i may
            cases taken
            obtain ⟨member, meets, _⟩ :=
              state.accesses.firstIn_eq_some found
            exact inv.changeAccess (by simpa using idle) member meets may
          · cases taken
  | decreasePredecessors =>
      simp only [Combination.step] at taken
      split at taken
      · split at taken
        · cases taken
          exact inv.decreasePredecessors ‹_› ‹_› permitted
        · cases taken
      · cases taken
  | combineRegion =>
      simp only [Combination.step] at taken
      split at taken
      · split at taken
        · cases taken
          exact inv.combineRegion ‹_› ‹_›
        · cases taken
      · cases taken
  | propagate =>
      simp only [Combination.step] at taken
      split at taken
      · split at taken
        · cases taken
          exact inv.propagate ‹_› ‹_›
        · cases taken
      · cases taken
  | processSatisfiedOriginators =>
      simp only [Combination.step] at taken
      split at taken
      · cases taken
        exact inv.processSatisfiedOriginators ‹_›
      · cases taken
  | returnFromRegistration =>
      simp only [Combination.step] at taken
      split at taken
      · cases taken
        exact inv.returnFromRegistration ‹_› permitted
      · cases taken

theorem wellFormed_of_isDeclared {task : TaskId} {access : DataAccess}
    (declared : access.IsDeclared task) :
    WellFormed access ∧ access.IsAnchored ∧
      access.isEnforcing = false ∧
      access.closesPreviousReduction = false := by
  obtain ⟨type, weak, index, symbols, cpus, rfl⟩ := declared
  refine ⟨?_, ?_, rfl, ?_⟩
  · constructor <;> simp
  · intro registered
    cases registered
  · simp [DataAccess.closesPreviousReduction]

theorem Inv.initial {task : TaskId} (parent : TaskId → Option TaskId)
    {accesses : IntervalMap DataAccess}
    (declared : ∀ piece ∈ accesses.pieces, piece.value.IsDeclared task) :
    Inv (initialState task parent accesses) := by
  have none : accesses.countPieces DataAccess.isEnforcing = 0 := by
    refine List.countP_eq_zero.mpr ?_
    intro piece member
    simp [(wellFormed_of_isDeclared (declared piece member)).2.2.1]
  have opened : ∀ address access, accesses.lookup address = some access →
      access.closesPreviousReduction = false := by
    intro address access found
    obtain ⟨piece, member, _, rfl⟩ := accesses.lookup_eq_some.mp found
    exact (wellFormed_of_isDeclared (declared piece member)).2.2.2
  unfold initialState
  split
  · rename_i empty
    have nothing : accesses.pieces = [] := List.isEmpty_iff.mp empty
    have absent : ∀ piece ∈ accesses.pieces, False := by
      intro piece member
      rw [nothing] at member
      cases member
    exact
      { wellFormed := fun piece member => (absent piece member).elim
        anchored := fun piece member => (absent piece member).elim
        registered := fun _ piece member => (absent piece member).elim
        counted := by simp [State.guard, State.owed, none, indicator]
        handles := fun _ active => by cases active
        combined := fun address access _ found _ closes _ => by
          rw [opened address access found] at closes
          cases closes
        reported := fun _ =>
          ⟨rfl, fun piece member => (absent piece member).elim,
            fun piece member => (absent piece member).elim⟩
        originator := fun _ active => by cases active
        nothingLeft := fun _ _ active => by cases active }
  · have unreported : ∀ state : State, state.readyReports = [] →
        state.satisfiedOriginators = 0 → ¬ state.IsReported := by
      rintro state reports originators (some | some)
      · exact some reports
      · omega
    exact
      { wellFormed := fun piece member =>
          (wellFormed_of_isDeclared (declared piece member)).1
        anchored := fun piece member =>
          (wellFormed_of_isDeclared (declared piece member)).2.1
        registered := fun done => by cases done
        counted := by
          simp [State.guard, State.owed, none, indicator,
            Counters.increasePredecessors]
        handles := fun _ active => by cases active
        combined := fun address access _ found _ closes _ => by
          rw [opened address access found] at closes
          cases closes
        reported := fun reported => absurd reported (unreported _ rfl rfl)
        originator := fun _ active => by cases active
        nothingLeft := fun reported =>
          absurd reported (unreported _ rfl rfl) }

/-- In every run without the two bad orders, a task is reported as ready only
after the reductions before its accesses have been combined. -/
theorem combinedBeforeUse_of_run {task : TaskId}
    {parent : TaskId → Option TaskId} {declarations : List AccessDeclaration}
    {accesses : IntervalMap DataAccess} {state : State}
    (registered : registerDepinfo task declarations = some accesses)
    (run : Run step Permitted (initialState task parent accesses) state) :
    CombinedBeforeUse state := by
  have inv : Inv state :=
    run.invariant (Inv.initial parent (isDeclared_registerDepinfo registered))
      fun _ _ _ before permitted taken => before.step permitted taken
  exact inv.combinedBeforeUse

/-! ## The whole handling at once -/

/-- What becomes of an object does not depend on the counters of its task. -/
theorem access_handleDataAccessStatusChanges_counters
    (initial updated : DataAccessStatusEffects) (access : DataAccess)
    (region : DataAccessRegion) (task : TaskId)
    (first second : Counters) :
    (handleDataAccessStatusChanges initial updated access region task
        first).access =
      (handleDataAccessStatusChanges initial updated access region task
        second).access := by
  unfold handleDataAccessStatusChanges
  cases updated.isRegistered <;> rfl

/-- A handling that no other thread interrupts changes the accesses and the
counters as `handleChange` does, which the model of the whole dependency system
takes for one step. -/
theorem handleChange_of_uninterrupted {state : State} (inv : Inv state)
    (idle : state.handling = none) {thread : Thread} {change : Change}
    {region : DataAccessRegion} {piece : Piece DataAccess}
    (found : state.accesses.firstIn region.start region.stop = some piece)
    (may : mayChange state thread change region piece = true) :
    ∃ next,
      executeAllowed step (fun _ _ => True) state
          [.change thread change region, .decreasePredecessors,
            .combineRegion, .propagate] = some next ∧
        let handled :=
          handleChange state.parent state.task piece region change.setter
            state.counters
        next.counters = handled.counters ∧
          next.satisfiedOriginators =
            state.satisfiedOriginators +
              handled.dependencyData.satisfiedOriginators.length ∧
          ∀ address, next.accesses.lookup address =
            (state.accesses.replace piece region
              handled.access).lookup address := by
  obtain ⟨member, meets, _⟩ := state.accesses.firstIn_eq_some found
  obtain ⟨reached, _, asserted, _, _⟩ := mayChange_cases may
  have formed :=
    Change.registered (inv.wellFormed piece member) reached asserted
  let changed := changeAccess state thread change region piece
  let first : Handling :=
    { thread := thread
      region := piece.interval.inter region
      initial := piece.value
      access := change.setter.apply piece.value }
  let decreased := decreasePredecessors changed first
  let second : Handling :=
    { first with
      point := .combineRegion
      isSatisfiedOriginator :=
        (handleDependency (.of state.parent first.initial)
          (.of state.parent first.access) changed.counters).2 }
  let combined := combineRegion decreased second
  refine ⟨propagate combined { second with point := .propagate }, ?_, ?_⟩
  · simp only [executeAllowed, step, idle, found, may]
    rfl
  have counters : (propagate combined
        { second with point := .propagate }).counters =
      (handleRemoval (.of state.parent first.initial)
        (.of state.parent first.access) first.access state.task
        (handleDependency (.of state.parent first.initial)
          (.of state.parent first.access) changed.counters).1).1 :=
    rfl
  have isRegistered :
      (DataAccessStatusEffects.of state.parent
        first.access).isRegistered = true :=
    formed.registered
  refine ⟨?_, ?_, ?_⟩
  · rw [counters, handleChange, counters_handleDataAccessStatusChanges]
    rw [if_pos isRegistered]
    rfl
  · have originators : (handleChange state.parent state.task piece region
        change.setter state.counters).dependencyData.satisfiedOriginators =
          if second.isSatisfiedOriginator then [state.task] else [] := by
      unfold handleChange handleDataAccessStatusChanges
      rw [if_neg (by simpa using isRegistered)]
      rfl
    rw [originators]
    change state.satisfiedOriginators + _ = _
    cases second.isSatisfiedOriginator <;> rfl
  · intro address
    have held : (⟨first.region, first.access⟩ : Piece DataAccess) ∈
        changed.accesses.pieces :=
      (inv.changeAccess idle member meets may).handles first rfl |>.member
    change (changed.accesses.replace _ _ _).lookup address = _
    rw [changed.accesses.lookup_replace held,
      state.accesses.lookup_replace member]
    change (if _ then _ else
      (state.accesses.replace piece region _).lookup address) = _
    rw [state.accesses.lookup_replace member]
    by_cases inside : address ∈ piece.interval ∧ address ∈ region
    · have inRegion : address ∈ first.region := Interval.mem_inter.mpr inside
      rw [if_pos ⟨inRegion, inRegion⟩, if_pos inside]
      exact access_handleDataAccessStatusChanges_counters ..
    · have outside : ¬ (address ∈ first.region ∧ address ∈ first.region) :=
        fun both => inside (Interval.mem_inter.mp both.1)
      rw [if_neg outside, if_neg inside, if_neg inside]

/-! ## Runs of one task behind a reduction -/

/-- The main task is 0, the reduction is task 1, and task 2 comes after it. -/
def siblingsOfMain (task : TaskId) : Option TaskId :=
  if task = 0 then none else some 0

def accessesOf (type : DataAccessType) : IntervalMap DataAccess :=
  (registerDepinfo 2 [.strong type 0 8]).getD .empty

/-- One change of the access with its whole handling. -/
def handledChange (thread : Thread) (change : Change) : List Action :=
  [.change thread change ⟨0, 8⟩, .decreasePredecessors, .combineRegion,
    .propagate]

/-- What the reduction sends when task 2 is linked to it. -/
def linkedToReduction : Change :=
  .applyUpdateOperation
    { target := ⟨2, .access⟩
      region := ⟨0, 8⟩
      setReductionInfo := true
      reductionInfo := some ⟨0, 0⟩
      makeTopLevel := true }

/-- What the reduction sends when it completes; `write` tells whether the
accesses before it are complete. -/
def reductionCompletes (write : Bool) : Change :=
  .applyUpdateOperation
    { target := ⟨2, .access⟩
      region := ⟨0, 8⟩
      makeReadSatisfied := true
      makeWriteSatisfied := write
      makeConcurrentSatisfied := write
      makeTopmost := write
      reductionCpuSet := some {0} }

/-- The registration of task 2 up to the return. -/
def registration : List Action :=
  handledChange .registering .setRegistered ++
    handledChange .registering linkedToReduction

/-- The task has been reported as ready and its first byte follows a reduction
that nobody has combined. -/
def readyUncombined (state : State) : Bool :=
  !state.readyReports.isEmpty && state.combinations.isEmpty &&
    (state.accesses.lookup 0).any fun access =>
      decide (IsUse access) && access.previousReductionInfo.isSome

theorem not_combinedBeforeUse {state : State}
    (uncombined : readyUncombined state = true) :
    ¬ CombinedBeforeUse state := by
  intro combined
  simp only [readyUncombined, Bool.and_eq_true, Bool.not_eq_true',
    List.isEmpty_eq_false_iff, List.isEmpty_iff, Option.any_eq_true,
    decide_eq_true_eq] at uncombined
  obtain ⟨⟨ready, nothing⟩, access, found, use, previous⟩ := uncombined
  obtain ⟨info, same⟩ := Option.isSome_iff_exists.mp previous
  obtain ⟨region, logged, _⟩ :=
    (combined ready 0 access found use).2 info same
  rw [nothing] at logged
  cases logged

theorem combinedBeforeUse_fails :
    (∃ state,
      Run step (fun _ _ => True)
          (initialState 2 siblingsOfMain (accessesOf .write)) state ∧
        ¬ CombinedBeforeUse state) ∧
      ∃ state,
        Run step (fun _ _ => True)
            (initialState 2 siblingsOfMain (accessesOf .read)) state ∧
          ¬ CombinedBeforeUse state := by
  constructor
  · -- The registration returns between the decrement and the combination.
    obtain ⟨state, run, uncombined⟩ :=
      exists_run_of_executeAllowed
        (registration ++
          [.change .other (reductionCompletes true) ⟨0, 8⟩,
            .decreasePredecessors, .returnFromRegistration])
        (initialState 2 siblingsOfMain (accessesOf .write)) readyUncombined
        (by decide +kernel :
          (executeAllowed step (fun _ _ => True) _ _).any _ = true)
    exact ⟨state, run, not_combinedBeforeUse uncombined⟩
  · -- The reduction completes while an earlier reader still runs.
    obtain ⟨state, run, uncombined⟩ :=
      exists_run_of_executeAllowed
        (registration ++ [.returnFromRegistration] ++
          handledChange .other (reductionCompletes false) ++
          [.processSatisfiedOriginators])
        (initialState 2 siblingsOfMain (accessesOf .read)) readyUncombined
        (by decide +kernel :
          (executeAllowed step (fun _ _ => True) _ _).any _ = true)
    exact ⟨state, run, not_combinedBeforeUse uncombined⟩

/-- With the same updates in a good order the reduction is combined over the
whole access before the task is reported. -/
theorem combinedBeforeUse_after_registration :
    ∃ state,
      Run step Permitted
          (initialState 2 siblingsOfMain (accessesOf .write)) state ∧
        state.readyReports = [.satisfiedOriginator] ∧
        state.combinations = [(⟨0, 0⟩, ⟨0, 8⟩)] ∧
        CombinedBeforeUse state := by
  have declared : registerDepinfo 2 [.strong .write 0 8] =
      some (accessesOf .write) := by
    have some : (registerDepinfo 2 [.strong .write 0 8]).isSome = true := by
      decide +kernel
    obtain ⟨accesses, found⟩ := Option.isSome_iff_exists.mp some
    simp [accessesOf, found]
  obtain ⟨state, run, outcome⟩ :=
    exists_run_of_executeAllowed
      (registration ++ [.returnFromRegistration] ++
        handledChange .other (reductionCompletes true) ++
        [.processSatisfiedOriginators])
      (initialState 2 siblingsOfMain (accessesOf .write))
      (fun state =>
        decide (state.readyReports = [.satisfiedOriginator] ∧
          state.combinations = [(⟨0, 0⟩, ⟨0, 8⟩)]))
      (by decide +kernel : (executeAllowed step Permitted _ _).any _ = true)
  have reached := of_decide_eq_true outcome
  exact ⟨state, run, reached.1, reached.2,
    combinedBeforeUse_of_run declared run⟩

end Nanos6.Combination
