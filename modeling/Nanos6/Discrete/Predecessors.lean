import Nanos6.Discrete.DataAccess

/-!
# Predecessors and repeated accesses

A task has a predecessor for each strong access that is not satisfied.  What a
registration returns does not always say whether the number of these has grown: a
weak access that is made strong is not counted, and a weak write after a read is
counted.  A strong read that is put before a weak write is linked to the access
before, also if there is none.
-/

namespace Nanos6.Discrete

open Foundation

/-- The accesses that may be repeated. -/
def DataAccessType.isPlain : DataAccessType → Bool
  | .read => true
  | .write => true
  | .readwrite => true
  | _ => false

/-- The task has to wait for its access. -/
def DataAccess.waits (task : Nat) (access : DataAccess) : Nat :=
  if access.originator = task ∧ !access.weak ∧ !access.satisfied then 1 else 0

namespace DataAccessSequence

/-- The number of strong accesses of the task that are not satisfied. -/
def outstanding (task : Nat) : DataAccessSequence → Nat
  | nil => 0
  | cons access subaccesses rest =>
      access.waits task + subaccesses.outstanding task +
        rest.outstanding task

def originators : DataAccessSequence → List Nat
  | nil => []
  | cons access subaccesses rest =>
      access.originator :: subaccesses.originators ++ rest.originators

/-- The last access of the sequence with the one before it. -/
def lastAccess : Option DataAccess → DataAccessSequence →
    Option (Option DataAccess × DataAccess)
  | _, nil => none
  | previous, cons access _ rest =>
      if rest.isEmpty then some (previous, access)
      else rest.lastAccess (some access)

end DataAccessSequence

/-! ### Registrations of one task -/

structure Registration where
  type : DataAccessType
  weak : Bool
  deriving DecidableEq, Repr

/-- The sequence to which a task adds its accesses, and its predecessors. -/
structure State where
  sequence : DataAccessSequence
  predecessors : Int := 0
  deriving DecidableEq, Repr

/-- `register_access` for a sequence that is effectively after `previous`. -/
def registerAccess (task : Nat) (previous : Option DataAccess)
    (state : State) (registration : Registration) : Option State :=
  (state.sequence.registerTaskDataAccess task registration.type
    registration.weak previous).map fun result =>
      { sequence := result.1
        predecessors :=
          if result.2 then state.predecessors
          else state.predecessors + 1 }

def registerAccesses (task : Nat) (previous : Option DataAccess) :
    State → List Registration → Option State
  | state, [] => some state
  | state, registration :: rest =>
      (registerAccess task previous state registration).bind fun next =>
        registerAccesses task previous next rest

/-! ### What happens to the sequence later -/

inductive Change where
  /-- The access that holds the sequence becomes satisfied. -/
  | reevaluate (previous : Option DataAccess)
  | unregister (previous : Option DataAccess) (other : Nat)
  | register (previous : Option DataAccess) (other : Nat)
      (registration : Registration)
  deriving DecidableEq, Repr

/-- `decreasePredecessors` is called for each task whose access has become
satisfied. -/
def State.satisfy (task : Nat) (state : State)
    (result : DataAccessSequence × List Nat) : State where
  sequence := result.1
  predecessors := state.predecessors - result.2.count task

/-- The other tasks go on. -/
def change (task : Nat) (state : State) : Change → Option State
  | .reevaluate previous =>
      some (state.satisfy task
        (state.sequence.reevaluateAndPropagateSatisfiability previous))
  | .unregister previous other =>
      if other = task then none
      else some (state.satisfy task
        (state.sequence.unregisterDataAccess other previous))
  | .register previous other registration =>
      if other = task then none
      else
        (state.sequence.registerTaskDataAccess other registration.type
          registration.weak previous).map fun result =>
            { state with sequence := result.1 }

/-- The predecessors are the strong accesses that are not satisfied, and they are
gone when all of these are satisfied. -/
structure State.IsCounted (task : Nat) (state : State) : Prop where
  count : state.predecessors = state.sequence.outstanding task
  ready : ∀ later, Run (change task) (fun _ _ => True) state later →
    (later.predecessors = 0 ↔ later.sequence.outstanding task = 0)

/-! ### When a registration is counted right -/

/-- A weak access that is not satisfied is not made strong, unless by a read before
a write; a write after a read is not weak, unless the read is weak too and either
not satisfied or the first one; and a strong read before a weak write is not the
first one. -/
def DataAccess.isCountedWith (access : DataAccess)
    (previous : Option DataAccess) (registration : Registration) : Bool :=
  !(access.weak && !registration.weak && !access.satisfied &&
      (access.type == registration.type || registration.type != .read)) &&
    !(registration.weak && access.type == .read &&
      registration.type != .read &&
      (!access.weak || access.satisfied && previous.isSome)) &&
    !(access.weak && !registration.weak && access.type != .read &&
      registration.type == .read && previous.isNone)

/-- Only an access that the task has already is upgraded. -/
def DataAccessSequence.permits (task : Nat) (registration : Registration)
    (previous : Option DataAccess) (sequence : DataAccessSequence) : Bool :=
  match sequence.lastAccess previous with
  | none => true
  | some (before, access) =>
      access.originator != task || access.isCountedWith before registration

def permitsAll (task : Nat) (previous : Option DataAccess) :
    State → List Registration → Bool
  | _, [] => true
  | state, registration :: rest =>
      state.sequence.permits task registration previous &&
        match registerAccess task previous state registration with
        | none => true
        | some next => permitsAll task previous next rest

/-! ## The upgrades -/

/-- The accesses that the task waits for after an upgrade. -/
def Upgrade.waits (task : Nat) (upgrade : Upgrade) : Nat :=
  upgrade.access.waits task +
    (DataAccessSequence.ofOption upgrade.created).outstanding task

/-- The task waits for one more access exactly if that is what the upgrade
returns. -/
def Upgrade.Counts (access : DataAccess) (upgrade : Upgrade) : Prop :=
  (access.waits access.originator : Int) +
    (if upgrade.canStart then 0 else 1) = upgrade.waits access.originator

/-- The objects are those of the same task. -/
structure Upgrade.IsPlain (access : DataAccess) (upgrade : Upgrade) :
    Prop where
  originator : upgrade.access.originator = access.originator
  type : upgrade.access.type.isPlain = true
  created : ∀ created ∈ upgrade.created,
    created.originator = access.originator ∧ created.type.isPlain = true

/-- What an upgrade that may fail leaves, and when it goes through and is counted
right. -/
structure Upgrade.Leaves (access : DataAccess) (result : Option Upgrade)
    (counted : Prop) : Prop where
  plain : ∀ upgrade ∈ result, upgrade.IsPlain access
  counts : (∃ upgrade ∈ result, upgrade.Counts access) ↔ counted

theorem Upgrade.leaves_some {access : DataAccess} {upgrade : Upgrade}
    {counted : Prop} (plain : upgrade.IsPlain access)
    (counts : upgrade.Counts access ↔ counted) :
    Upgrade.Leaves access (some upgrade) counted := by
  refine ⟨?_, Iff.trans ?_ counts⟩
  · rintro _ ⟨⟩
    exact plain
  · simp

namespace DataAccess

variable (access : DataAccess) (previous : Option DataAccess)

theorem counts_upgradeSameTypeAccess (newWeak : Bool) :
    (access.upgradeSameTypeAccess newWeak).Counts access ↔
      (access.weak && !newWeak && !access.satisfied) = false := by
  obtain ⟨originator, type, weak, satisfied⟩ := access
  cases weak <;> cases newWeak <;> cases satisfied <;>
    simp [Upgrade.Counts, Upgrade.waits, upgradeSameTypeAccess, waits,
      DataAccessSequence.ofOption, DataAccessSequence.outstanding]

/-- Only the first access is satisfied as a write. -/
theorem evaluateSatisfiability_readwrite :
    evaluateSatisfiability previous .readwrite = !previous.isSome := by
  cases previous with
  | none => rfl
  | some access => simp [evaluateSatisfiability]

/-- A weak access that loses its satisfiability is counted too. -/
theorem counts_becomeReadwrite :
    (access.becomeReadwrite previous).Counts access ↔
      (access.weak && access.satisfied && previous.isSome) = false := by
  obtain ⟨originator, type, weak, satisfied⟩ := access
  cases weak <;> cases satisfied <;> cases previous <;>
    simp [Upgrade.Counts, Upgrade.waits, becomeReadwrite, waits,
      evaluateSatisfiability_readwrite, DataAccessSequence.ofOption,
      DataAccessSequence.outstanding]

/-- A weak access that is made strong is counted only if it was satisfied. -/
theorem counts_becomeReadwrite_strong (weak : access.weak = true) :
    ({ access with weak := false }.becomeReadwrite previous).Counts
      access ↔ access.satisfied = true := by
  obtain ⟨originator, type, weak, satisfied⟩ := access
  cases weak
  cases satisfied <;> cases previous <;>
    simp [Upgrade.Counts, Upgrade.waits, becomeReadwrite, waits,
      evaluateSatisfiability_readwrite, DataAccessSequence.ofOption,
      DataAccessSequence.outstanding]

/-- A strong access of one type and a weak one of another. -/
theorem upgradeStrongAccessWithWeak_spec {newType : DataAccessType}
    (strong : access.weak = false) (plain : access.type.isPlain = true)
    (newPlain : newType.isPlain = true) (differ : access.type ≠ newType) :
    Upgrade.Leaves access (access.upgradeStrongAccessWithWeak newType)
      (access.type ≠ .read) := by
  obtain ⟨originator, type, weak, satisfied⟩ := access
  cases strong
  cases type <;> cases plain <;> cases newType <;> cases newPlain <;>
    try exact absurd rfl differ
  all_goals
    refine Upgrade.leaves_some
      ⟨rfl, rfl, by simp [DataAccessType.isPlain]⟩ ?_
    cases satisfied <;>
      simp [Upgrade.Counts, Upgrade.waits, waits, evaluateSatisfiability,
        DataAccessSequence.ofOption, DataAccessSequence.outstanding]

theorem isPlain_becomeReadwrite (weak : Bool) :
    ({ access with weak := weak }.becomeReadwrite previous).IsPlain
      access := by
  unfold becomeReadwrite
  split <;> exact ⟨rfl, rfl, by simp⟩

/-- Two weak or two strong accesses of different types. -/
theorem upgradeSameStrengthAccess_spec {newType : DataAccessType}
    (plain : access.type.isPlain = true)
    (newPlain : newType.isPlain = true) (differ : access.type ≠ newType) :
    Upgrade.Leaves access
      (access.upgradeSameStrengthAccess previous newType)
      ((access.type == .read && access.weak && access.satisfied &&
        previous.isSome) = false) := by
  by_cases isRead : access.type = .read
  · have isUpgrade : access.upgradeSameStrengthAccess previous newType =
        some (access.becomeReadwrite previous) := by
      rw [isRead] at differ
      cases newType <;> cases newPlain <;>
        simp [upgradeSameStrengthAccess, isRead] at differ ⊢
    rw [isUpgrade]
    refine Upgrade.leaves_some
      (access.isPlain_becomeReadwrite previous access.weak) ?_
    rw [counts_becomeReadwrite, isRead]
    simp
  · obtain ⟨originator, type, weak, satisfied⟩ := access
    cases type <;> cases plain <;> cases newType <;> cases newPlain <;>
      try first | exact absurd rfl differ | exact absurd rfl isRead
    all_goals
      refine Upgrade.leaves_some ⟨rfl, rfl, by simp⟩ ?_
      simp [Upgrade.Counts, Upgrade.waits, waits,
        DataAccessSequence.ofOption, DataAccessSequence.outstanding]

/-- A weak access of one type and a strong one of another. -/
theorem upgradeWeakAccessWithStrong_spec {newType : DataAccessType}
    (weak : access.weak = true) (plain : access.type.isPlain = true)
    (differ : access.type ≠ newType) :
    Upgrade.Leaves access
      (access.upgradeWeakAccessWithStrong previous newType)
      (if newType = .read then previous.isSome = true
      else access.satisfied = true) := by
  by_cases isRead : newType = .read
  · subst isRead
    rw [if_pos rfl]
    obtain ⟨originator, type, weak, satisfied⟩ := access
    cases weak
    cases previous with
    | none =>
        cases type <;> cases plain <;> try exact absurd rfl differ
        all_goals
          refine ⟨nofun, ?_⟩
          simp [upgradeWeakAccessWithStrong]
    | some before =>
        cases type <;> cases plain <;> try exact absurd rfl differ
        all_goals
          refine Upgrade.leaves_some
            ⟨rfl, rfl, by simp [DataAccessType.isPlain]⟩ ?_
          cases readable : evaluateSatisfiability (some before) .read <;>
            simp [Upgrade.Counts, Upgrade.waits, waits, readable,
              DataAccessSequence.ofOption, DataAccessSequence.outstanding]
  · rw [if_neg isRead, upgradeWeakAccessWithStrong, if_pos isRead]
    exact Upgrade.leaves_some (access.isPlain_becomeReadwrite previous false)
      (access.counts_becomeReadwrite_strong previous weak)

/-- The registration goes through and the number of accesses to wait for is
counted right exactly if it is one of those. -/
theorem upgradeAccess_spec (registration : Registration)
    (plain : access.type.isPlain = true)
    (newPlain : registration.type.isPlain = true) :
    Upgrade.Leaves access
      (access.upgradeAccess previous registration.type registration.weak)
      (access.isCountedWith previous registration = true) := by
  obtain ⟨newType, newWeak⟩ := registration
  have combined : ¬ (access.type = .concurrent ∨ newType = .concurrent) := by
    rintro (isConcurrent | isConcurrent)
    · rw [isConcurrent] at plain
      cases plain
    · cases isConcurrent
      cases newPlain
  have sameType : access.hasType newType = decide (access.type = newType) := by
    unfold hasType
    cases type : access.type <;> rw [type] at plain <;> cases plain <;> rfl
  simp only [upgradeAccess, if_neg combined, sameType, decide_eq_true_eq]
  split
  · rename_i same
    refine Upgrade.leaves_some
      ⟨rfl, plain, by simp [upgradeSameTypeAccess]⟩ ?_
    rw [counts_upgradeSameTypeAccess]
    by_cases isRead : newType = .read <;> cases newWeak <;>
      cases weak : access.weak <;>
        simp [isCountedWith, same, isRead, weak]
  · rename_i differ
    have notBoth : access.type = .read → newType ≠ .read := by
      intro isRead also
      exact differ (isRead.trans also.symm)
    split
    · rename_i strength
      obtain ⟨isPlain, counts⟩ :=
        access.upgradeSameStrengthAccess_spec previous plain newPlain differ
      refine ⟨isPlain, counts.trans ?_⟩
      by_cases isRead : access.type = .read
      · cases weak : access.weak <;> cases satisfied : access.satisfied <;>
          simp [isCountedWith, ← strength, weak, satisfied, isRead,
            notBoth isRead]
      · simp [isCountedWith, ← strength, isRead]
    · rename_i strength
      cases weak : access.weak with
      | false =>
          have newWeak : newWeak = true := by
            cases newWeak
            · exact absurd weak strength
            · rfl
          obtain ⟨isPlain, counts⟩ :=
            access.upgradeStrongAccessWithWeak_spec weak plain newPlain
              differ
          refine ⟨isPlain, counts.trans ?_⟩
          by_cases isRead : access.type = .read
          · simp [isCountedWith, weak, newWeak, isRead, notBoth isRead]
          · simp [isCountedWith, weak, newWeak, isRead]
      | true =>
          have newWeak : newWeak = false := by
            cases newWeak
            · rfl
            · exact absurd weak strength
          obtain ⟨isPlain, counts⟩ :=
            access.upgradeWeakAccessWithStrong_spec previous weak plain
              differ
          refine ⟨isPlain, counts.trans ?_⟩
          by_cases isRead : newType = .read
          · have notRead : access.type ≠ .read := fun also =>
              notBoth also isRead
            simp [isCountedWith, weak, newWeak, isRead, notRead]
          · simp [isCountedWith, weak, newWeak, differ, isRead]

end DataAccess

/-! ## Registrations -/

namespace DataAccessSequence

/-- An access of the task at the end of the sequence may be repeated. -/
def EndsPlain (task : Nat) (previous : Option DataAccess)
    (sequence : DataAccessSequence) : Prop :=
  ∀ before access, sequence.lastAccess previous = some (before, access) →
    access.originator = task → access.type.isPlain = true

theorem eq_nil_of_isEmpty {sequence : DataAccessSequence}
    (empty : sequence.isEmpty = true) : sequence = nil := by
  cases sequence with
  | nil => rfl
  | cons access subaccesses rest => cases empty

theorem lastAccess_cons (access : DataAccess)
    (subaccesses : DataAccessSequence) {rest : DataAccessSequence}
    (previous : Option DataAccess) (full : rest.isEmpty = false) :
    (cons access subaccesses rest).lastAccess previous =
      rest.lastAccess (some access) := by
  rw [lastAccess, full]
  rfl

/-- What a registration returns says whether the task waits for one more
access. -/
def Counts (task : Nat) (sequence : DataAccessSequence)
    (result : DataAccessSequence × Bool) : Prop :=
  (sequence.outstanding task : Int) + (if result.2 then 0 else 1) =
    result.1.outstanding task

theorem counts_cons {task : Nat} {access : DataAccess}
    {subaccesses rest : DataAccessSequence}
    {result : DataAccessSequence × Bool} :
    (cons access subaccesses rest).Counts task
        (cons access subaccesses result.1, result.2) ↔
      rest.Counts task result := by
  simp only [Counts, outstanding]
  omega

/-- The registration goes through and what it returns is right exactly if it is
permitted. -/
theorem registerTaskDataAccess_spec (task : Nat)
    (registration : Registration) (previous : Option DataAccess)
    (sequence : DataAccessSequence)
    (newPlain : registration.type.isPlain = true)
    (plain : sequence.EndsPlain task previous) :
    (∀ result ∈ sequence.registerTaskDataAccess task registration.type
        registration.weak previous,
      result.1.isEmpty = false ∧ result.1.EndsPlain task previous) ∧
    ((∃ result ∈ sequence.registerTaskDataAccess task registration.type
        registration.weak previous, sequence.Counts task result) ↔
      sequence.permits task registration previous = true) := by
  induction sequence generalizing previous with
  | nil =>
      constructor
      · rintro _ ⟨⟩
        refine ⟨rfl, ?_⟩
        intro before access isLast _
        cases isLast
        exact newPlain
      · refine iff_of_true ⟨_, rfl, ?_⟩ rfl
        simp only [Counts, outstanding, DataAccess.waits]
        cases evaluateSatisfiability previous registration.type <;>
          cases registration.weak <;> simp
  | cons access subaccesses rest _ inductionHypothesis =>
      rw [registerTaskDataAccess]
      by_cases isOwn : rest.isEmpty = true ∧ access.originator = task
      · rw [if_pos isOwn]
        obtain ⟨empty, rfl⟩ := isOwn
        cases eq_nil_of_isEmpty empty
        obtain ⟨isPlain, counts⟩ := access.upgradeAccess_spec previous
          registration (plain previous access rfl rfl) newPlain
        constructor
        · intro result isResult
          obtain ⟨upgrade, isUpgrade, rfl⟩ :=
            Option.map_eq_some_iff.mp isResult
          refine ⟨rfl, ?_⟩
          intro before last isLast _
          cases created : upgrade.created with
          | none =>
              rw [created] at isLast
              cases isLast
              exact (isPlain upgrade isUpgrade).type
          | some second =>
              rw [created] at isLast
              cases isLast
              exact ((isPlain upgrade isUpgrade).created last created).2
        · have permitted : (cons access subaccesses nil).permits
              access.originator registration previous =
                access.isCountedWith previous registration := by
            simp [permits, lastAccess, isEmpty]
          rw [permitted, ← counts]
          have same (upgrade : Upgrade) :
              (cons access subaccesses nil).Counts access.originator
                (cons upgrade.access subaccesses (ofOption upgrade.created),
                  upgrade.canStart) ↔ upgrade.Counts access := by
            simp only [Counts, Upgrade.Counts, Upgrade.waits, outstanding]
            omega
          simp only [Option.mem_def, Option.map_eq_some_iff,
            exists_exists_and_eq_and, same]
      · rw [if_neg isOwn]
        have restPlain : rest.EndsPlain task (some access) := by
          intro before last isLast isOwner
          refine plain before last ?_ isOwner
          cases rest with
          | nil => cases isLast
          | cons => exact isLast
        obtain ⟨kept, counts⟩ := inductionHypothesis (some access) restPlain
        constructor
        · intro result isResult
          obtain ⟨inner, isInner, rfl⟩ := Option.map_eq_some_iff.mp isResult
          obtain ⟨full, endsPlain⟩ := kept inner isInner
          refine ⟨rfl, ?_⟩
          intro before last isLast isOwner
          rw [lastAccess_cons _ _ _ full] at isLast
          exact endsPlain before last isLast isOwner
        · have permitted : (cons access subaccesses rest).permits task
              registration previous =
                rest.permits task registration (some access) := by
            cases rest with
            | nil =>
                have differ : access.originator ≠ task :=
                  fun same => isOwn ⟨rfl, same⟩
                simp [permits, lastAccess, isEmpty, differ]
            | cons =>
                rw [permits, lastAccess_cons _ _ _ rfl]
                rfl
          rw [permitted, ← counts]
          simp only [Option.mem_def, Option.map_eq_some_iff,
            exists_exists_and_eq_and, counts_cons]

/-! ## What happens to the sequence later -/

/-- Each strong access that becomes satisfied is reported once. -/
theorem outstanding_reevaluate (task : Nat) (previous : Option DataAccess)
    (sequence : DataAccessSequence) :
    let result := sequence.reevaluateAndPropagateSatisfiability previous
    result.1.outstanding task + result.2.count task =
      sequence.outstanding task := by
  induction sequence generalizing previous with
  | nil => rfl
  | cons access subaccesses rest inner outer =>
      obtain ⟨originator, type, weak, satisfied⟩ := access
      have innerSame := inner previous
      have outerSame := outer (some ⟨originator, type, weak, true⟩)
      simp only at innerSame outerSame
      simp only [reevaluateAndPropagateSatisfiability]
      split
      · rfl
      · split
        · rename_i unsatisfied _
          cases weak with
          | false =>
              by_cases isOwner : originator = task <;>
                simp [outstanding, DataAccess.waits, unsatisfied, isOwner]
                  at outerSame ⊢ <;> omega
          | true =>
              simp only [outstanding, DataAccess.waits, if_true,
                List.count_append, Bool.not_true, Bool.false_eq_true,
                false_and, and_false, if_false]
              omega
        · rfl

theorem outstanding_append (task : Nat)
    (first second : DataAccessSequence) :
    (first.append second).outstanding task =
      first.outstanding task + second.outstanding task := by
  induction first with
  | nil => simp [append, outstanding]
  | cons access subaccesses rest _ inductionHypothesis =>
      simp only [append, outstanding, inductionHypothesis]
      omega

theorem outstanding_unregister {task other : Nat} (differ : other ≠ task)
    (previous : Option DataAccess) (sequence : DataAccessSequence) :
    let result := sequence.unregisterDataAccess other previous
    result.1.outstanding task + result.2.count task =
      sequence.outstanding task := by
  induction sequence generalizing previous with
  | nil => rfl
  | cons access subaccesses rest inner outer =>
      simp only [unregisterDataAccess]
      split
      · rename_i isOther
        have noWait : access.waits task = 0 := by
          simp [DataAccess.waits, isOther, differ]
        have reported := outstanding_reevaluate task
          (subaccesses.last previous) rest
        simp only at reported
        simp only [outstanding_append, outstanding, noWait]
        omega
      · have innerSame := inner previous
        have outerSame := outer (some access)
        simp only at innerSame outerSame
        simp only [outstanding, List.count_append]
        omega

/-- The objects of an upgrade are those of the same task. -/
theorem waits_upgradeAccess {task : Nat} {access : DataAccess}
    (differ : access.originator ≠ task) {previous : Option DataAccess}
    {type : DataAccessType} {weak : Bool} {upgrade : Upgrade}
    (isUpgrade : access.upgradeAccess previous type weak = some upgrade) :
    upgrade.waits task = 0 := by
  simp only [DataAccess.upgradeAccess] at isUpgrade
  split at isUpgrade
  · cases isUpgrade
  · split at isUpgrade
    · cases isUpgrade
      simp [Upgrade.waits, DataAccess.upgradeSameTypeAccess,
        DataAccess.waits, differ, ofOption, outstanding]
    · split at isUpgrade
      · simp only [DataAccess.upgradeSameStrengthAccess,
          DataAccess.becomeReadwrite] at isUpgrade
        grind [Upgrade.waits, DataAccess.waits, ofOption, outstanding]
      · split at isUpgrade
        · simp only [DataAccess.upgradeStrongAccessWithWeak] at isUpgrade
          grind [Upgrade.waits, DataAccess.waits, ofOption, outstanding]
        · simp only [DataAccess.upgradeWeakAccessWithStrong,
            DataAccess.becomeReadwrite] at isUpgrade
          cases previous with
          | none =>
              rw [Option.map_none] at isUpgrade
              grind [Upgrade.waits, DataAccess.waits, ofOption, outstanding]
          | some before =>
              rw [Option.map_some] at isUpgrade
              grind [Upgrade.waits, DataAccess.waits, ofOption, outstanding]

theorem outstanding_register {task other : Nat} (differ : other ≠ task)
    (type : DataAccessType) (weak : Bool) (previous : Option DataAccess)
    {sequence : DataAccessSequence} {result : DataAccessSequence × Bool}
    (isResult : sequence.registerTaskDataAccess other type weak previous =
      some result) :
    result.1.outstanding task = sequence.outstanding task := by
  induction sequence generalizing previous result with
  | nil =>
      cases isResult
      simp [outstanding, DataAccess.waits, differ]
  | cons access subaccesses rest _ inductionHypothesis =>
      rw [registerTaskDataAccess] at isResult
      split at isResult
      · rename_i isOwn
        obtain ⟨empty, rfl⟩ := isOwn
        cases eq_nil_of_isEmpty empty
        obtain ⟨upgrade, isUpgrade, rfl⟩ := Option.map_eq_some_iff.mp isResult
        have after := waits_upgradeAccess differ isUpgrade
        have before : access.waits task = 0 := by
          simp [DataAccess.waits, differ]
        simp only [Upgrade.waits] at after
        simp only [outstanding, before]
        omega
      · obtain ⟨inner, isInner, rfl⟩ := Option.map_eq_some_iff.mp isResult
        simp only [outstanding, inductionHypothesis _ isInner]

end DataAccessSequence

/-! ## Predecessors -/

/-- The predecessors are the accesses that the task waits for. -/
def State.IsBalanced (task : Nat) (state : State) : Prop :=
  state.predecessors = state.sequence.outstanding task

namespace State.IsBalanced

variable {task : Nat} {state : State}

/-- The predecessors are decreased for the accesses that become satisfied. -/
theorem satisfy (balanced : state.IsBalanced task)
    {result : DataAccessSequence × List Nat}
    (reported : result.1.outstanding task + result.2.count task =
      state.sequence.outstanding task) :
    (state.satisfy task result).IsBalanced task := by
  have same : state.predecessors = state.sequence.outstanding task := balanced
  change state.predecessors - (result.2.count task : Int) =
    result.1.outstanding task
  omega

theorem change (balanced : state.IsBalanced task) {label : Change}
    {next : State} (taken : change task state label = some next) :
    next.IsBalanced task := by
  cases label with
  | reevaluate previous =>
      cases taken
      exact balanced.satisfy
        (DataAccessSequence.outstanding_reevaluate task previous _)
  | unregister previous other =>
      simp only [Discrete.change] at taken
      split at taken
      · cases taken
      · rename_i differ
        cases taken
        exact balanced.satisfy
          (DataAccessSequence.outstanding_unregister differ previous _)
  | register previous other registration =>
      simp only [Discrete.change] at taken
      split at taken
      · cases taken
      · rename_i differ
        obtain ⟨result, isResult, rfl⟩ := Option.map_eq_some_iff.mp taken
        have same := DataAccessSequence.outstanding_register differ
          registration.type registration.weak previous isResult
        change state.predecessors = result.1.outstanding task
        rw [same]
        exact balanced

theorem isCounted (balanced : state.IsBalanced task) :
    state.IsCounted task := by
  refine ⟨balanced, fun later run => ?_⟩
  have after : later.IsBalanced task :=
    run.invariant balanced fun _ _ _ known _ taken => known.change taken
  rw [after]
  exact Int.natCast_eq_zero

end State.IsBalanced

theorem State.isCounted_iff (task : Nat) (state : State) :
    state.IsCounted task ↔ state.IsBalanced task :=
  ⟨fun counted => counted.count, fun balanced => balanced.isCounted⟩

/-- One registration goes through and leaves the predecessors right exactly if it
is permitted. -/
theorem registerAccess_spec (task : Nat) (previous : Option DataAccess)
    {state : State} (balanced : state.IsBalanced task)
    (plain : state.sequence.EndsPlain task previous)
    (registration : Registration)
    (newPlain : registration.type.isPlain = true) :
    (∀ next ∈ registerAccess task previous state registration,
      next.sequence.EndsPlain task previous) ∧
    ((∃ next ∈ registerAccess task previous state registration,
        next.IsBalanced task) ↔
      state.sequence.permits task registration previous = true) := by
  obtain ⟨kept, counts⟩ := state.sequence.registerTaskDataAccess_spec task
    registration previous newPlain plain
  constructor
  · intro next isNext
    obtain ⟨result, isResult, rfl⟩ := Option.map_eq_some_iff.mp isNext
    exact (kept result isResult).2
  · have same : state.predecessors = state.sequence.outstanding task :=
      balanced
    have right (result : DataAccessSequence × Bool) :
        State.IsBalanced task
          { sequence := result.1
            predecessors :=
              if result.2 then state.predecessors
              else state.predecessors + 1 } ↔
          state.sequence.Counts task result := by
      simp only [State.IsBalanced, DataAccessSequence.Counts, same]
      cases result.2 <;> simp
    rw [← counts, registerAccess]
    simp only [Option.mem_def, Option.map_eq_some_iff,
      exists_exists_and_eq_and, right]

/-- The registrations of the task go through and are right after each of them
exactly if each is permitted. -/
theorem isBalanced_registerAccesses_iff (task : Nat)
    (previous : Option DataAccess) (registrations : List Registration)
    {state : State} (balanced : state.IsBalanced task)
    (plain : state.sequence.EndsPlain task previous)
    (allPlain : ∀ registration ∈ registrations,
      registration.type.isPlain = true) :
    (∀ first rest, registrations = first ++ rest →
      ∃ next, registerAccesses task previous state first = some next ∧
        next.IsBalanced task) ↔
      permitsAll task previous state registrations = true := by
  induction registrations generalizing state with
  | nil =>
      refine ⟨fun _ => rfl, fun _ first rest split => ?_⟩
      cases (List.append_eq_nil_iff.mp split.symm).1
      exact ⟨state, rfl, balanced⟩
  | cons registration later inductionHypothesis =>
      obtain ⟨kept, counts⟩ := registerAccess_spec task previous balanced plain
        registration (allPlain registration List.mem_cons_self)
      have laterPlain : ∀ registration ∈ later,
          registration.type.isPlain = true :=
        fun other member => allPlain other (List.mem_cons_of_mem _ member)
      rw [permitsAll, Bool.and_eq_true, ← counts]
      constructor
      · intro holds
        obtain ⟨next, isFirst, nextBalanced⟩ :=
          holds [registration] later rfl
        obtain ⟨same, isNext, ended⟩ := Option.bind_eq_some_iff.mp isFirst
        cases ended
        refine ⟨⟨next, isNext, nextBalanced⟩, ?_⟩
        rw [isNext]
        refine (inductionHypothesis nextBalanced (kept next isNext)
          laterPlain).mp fun first rest split => ?_
        obtain ⟨after, isAfter, afterBalanced⟩ :=
          holds (registration :: first) rest (by rw [split]; rfl)
        rw [registerAccesses, isNext] at isAfter
        exact ⟨after, isAfter, afterBalanced⟩
      · rintro ⟨⟨next, isNext, nextBalanced⟩, permitted⟩ first rest split
        rw [isNext] at permitted
        cases first with
        | nil => exact ⟨state, rfl, balanced⟩
        | cons head first =>
            obtain ⟨rfl, same⟩ := List.cons.inj split
            rw [registerAccesses, isNext]
            exact (inductionHypothesis nextBalanced (kept next isNext)
              laterPlain).mpr permitted first rest same

theorem DataAccessSequence.outstanding_eq_zero {task : Nat}
    {sequence : DataAccessSequence} (fresh : task ∉ sequence.originators) :
    sequence.outstanding task = 0 := by
  induction sequence with
  | nil => rfl
  | cons access subaccesses rest inner outer =>
      simp only [originators, List.cons_append, List.mem_cons,
        List.mem_append, not_or] at fresh
      have noWait : access.waits task = 0 := by
        simp [DataAccess.waits, Ne.symm fresh.1]
      rw [outstanding, noWait, inner fresh.2.1, outer fresh.2.2]

theorem DataAccessSequence.endsPlain_of_fresh {task : Nat}
    {sequence : DataAccessSequence} (previous : Option DataAccess)
    (fresh : task ∉ sequence.originators) :
    sequence.EndsPlain task previous := by
  induction sequence generalizing previous with
  | nil => exact fun _ _ isLast => nomatch isLast
  | cons access subaccesses rest _ inductionHypothesis =>
      simp only [originators, List.cons_append, List.mem_cons,
        List.mem_append, not_or] at fresh
      intro before last isLast isOwner
      rw [lastAccess] at isLast
      split at isLast
      · cases isLast
        exact absurd isOwner (Ne.symm fresh.1)
      · exact inductionHypothesis _ fresh.2.2 before last isLast isOwner

theorem isCounted_registerAccesses_iff (task : Nat)
    (previous : Option DataAccess) (sequence : DataAccessSequence)
    (fresh : task ∉ sequence.originators)
    (registrations : List Registration)
    (allPlain : ∀ registration ∈ registrations,
      registration.type.isPlain = true) :
    (∀ first rest, registrations = first ++ rest →
      ∃ next, registerAccesses task previous { sequence := sequence } first =
        some next ∧ next.IsCounted task) ↔
      permitsAll task previous { sequence := sequence } registrations =
        true := by
  simp only [State.isCounted_iff]
  refine isBalanced_registerAccesses_iff task previous registrations ?_
    (sequence.endsPlain_of_fresh previous fresh) allPlain
  rw [State.IsBalanced, sequence.outstanding_eq_zero fresh]
  rfl

/-- A write of another task is before the accesses. -/
def afterWrite : DataAccessSequence :=
  .cons ⟨0, .write, false, true⟩ .nil .nil

/-- A strong read is put before a weak write. -/
theorem isCounted_weakWrite :
    ∃ next, registerAccesses 1 none { sequence := afterWrite }
        [⟨.write, true⟩, ⟨.read, false⟩] = some next ∧ next.IsCounted 1 :=
  (isCounted_registerAccesses_iff 1 none afterWrite (by decide)
    [⟨.write, true⟩, ⟨.read, false⟩] (by decide)).mpr (by decide) _ []
      (List.append_nil _).symm

/-- A weak read that is made strong is not counted. -/
theorem isCounted_registerAccesses_fails :
    ¬ ∀ (task : Nat) (previous : Option DataAccess)
        (sequence : DataAccessSequence) (registrations : List Registration),
      task ∉ sequence.originators →
      (∀ registration ∈ registrations, registration.type.isPlain = true) →
        ∃ next, registerAccesses task previous { sequence := sequence }
          registrations = some next ∧ next.IsCounted task := by
  intro holds
  obtain ⟨next, isNext, counted⟩ := holds 1 none afterWrite
    [⟨.read, true⟩, ⟨.read, false⟩] (by decide) (by decide)
  cases isNext
  have count := counted.count
  revert count
  decide

end Nanos6.Discrete
