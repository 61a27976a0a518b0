import Nanos6.Foundation.LabelledRun

/-!
# Discrete dependencies

The accesses to one datum.  Each access holds the sequence of the accesses of the
children of its task, so the accesses form a tree.  An access is satisfied depending
on the access that is effectively before it: the previous one of its sequence or,
for the first of a sequence, the one before the access that holds the sequence.

A task may register several accesses.  The last one of the sequence is then upgraded,
or gets a second object after it.  When an access is unregistered those that it holds
take its place, and the accesses that follow are evaluated again.
-/

namespace Nanos6.Discrete

/-- The type of an access; a reduction has its type and operator with it. -/
inductive DataAccessType where
  | read
  | write
  | readwrite
  | concurrent
  | reduction (operation : Nat)
  deriving DecidableEq, Repr

structure DataAccess where
  originator : Nat
  type : DataAccessType
  weak : Bool
  satisfied : Bool
  deriving DecidableEq, Repr

/-- The accesses of a sequence, each with its `_subaccesses`. -/
inductive DataAccessSequence where
  | nil
  | cons (access : DataAccess) (subaccesses rest : DataAccessSequence)
  deriving DecidableEq, Repr

def evaluateSatisfiability (effectivePrevious : Option DataAccess)
    (nextAccessType : DataAccessType) : Bool :=
  match effectivePrevious with
  | none => true
  | some previous =>
      if !previous.satisfied then false
      else
        match nextAccessType with
        | .write => false
        | .readwrite => false
        | .read => previous.type == .read
        | .concurrent => previous.type == .concurrent
        | .reduction operation => previous.type == .reduction operation

/-! ### Repeated accesses -/

/-- What an upgrade leaves: the access, an object created after it, and whether
the access is not to be counted as a predecessor. -/
structure Upgrade where
  access : DataAccess
  created : Option DataAccess := none
  canStart : Bool
  deriving DecidableEq, Repr

namespace DataAccess

def upgradeSameTypeAccess (access : DataAccess) (newAccessWeakness : Bool) :
    Upgrade where
  access := { access with weak := access.weak && newAccessWeakness }
  canStart := true

/-- The type becomes `READWRITE`, which may leave the access unsatisfied. -/
def becomeReadwrite (access : DataAccess)
    (effectivePrevious : Option DataAccess) : Upgrade :=
  if access.satisfied then
    let satisfied := evaluateSatisfiability effectivePrevious .readwrite
    { access :=
        { access with type := .readwrite, satisfied := satisfied }
      canStart := satisfied }
  else
    { access := { access with type := .readwrite }
      canStart := true }

/-- None if an assertion fails or a null pointer is followed, as in the functions
below. -/
def upgradeSameStrengthAccess (access : DataAccess)
    (effectivePrevious : Option DataAccess)
    (newAccessType : DataAccessType) : Option Upgrade :=
  match access.type with
  | .readwrite => some { access := access, canStart := true }
  | .write =>
      if newAccessType = .readwrite ∨ newAccessType = .read then
        some
          { access := { access with type := newAccessType }
            canStart := true }
      else none
  | .read =>
      if newAccessType = .write ∨ newAccessType = .readwrite then
        some (access.becomeReadwrite effectivePrevious)
      else none
  | _ => none

def upgradeStrongAccessWithWeak (access : DataAccess)
    (newAccessType : DataAccessType) : Option Upgrade :=
  match access.type with
  | .readwrite => some { access := access, canStart := true }
  | .write =>
      if newAccessType = .readwrite ∨ newAccessType = .read then
        some
          { access := { access with type := newAccessType }
            canStart := true }
      else none
  | .read =>
      if newAccessType = .read then
        some { access := access, canStart := true }
      else if newAccessType = .write ∨ newAccessType = .readwrite then
        let satisfied := evaluateSatisfiability (some access) newAccessType
        some
          { access := access
            created := some
              { originator := access.originator
                type := newAccessType
                weak := true
                satisfied := satisfied }
            canStart := satisfied }
      else none
  | _ => none

def upgradeWeakAccessWithStrong (access : DataAccess)
    (effectivePrevious : Option DataAccess)
    (newAccessType : DataAccessType) : Option Upgrade :=
  if newAccessType ≠ .read then
    some ({ access with weak := false }.becomeReadwrite effectivePrevious)
  else
    match access.type with
    | .read =>
        some
          { access := { access with weak := false }
            canStart := access.satisfied }
    | .reduction _ => none
    | _ =>
        -- The strong read comes before the weak access, and is linked to the
        -- access before both, which has to exist.
        effectivePrevious.map fun previous =>
          let satisfied := evaluateSatisfiability (some previous) .read
          { access :=
              { access with
                type := .read
                weak := false
                satisfied := satisfied }
            created := some { access with weak := true, satisfied := false }
            canStart := satisfied }

/-- The types are the same, whatever the operators of reductions. -/
def hasType (access : DataAccess) (type : DataAccessType) : Bool :=
  match access.type, type with
  | .reduction _, .reduction _ => true
  | current, new => current == new

/-- None also if the accesses may not be combined, which is a fatal error. -/
def upgradeAccess (access : DataAccess)
    (effectivePrevious : Option DataAccess)
    (newAccessType : DataAccessType) (newAccessWeakness : Bool) :
    Option Upgrade :=
  if access.type = .concurrent ∨ newAccessType = .concurrent then none
  else if access.hasType newAccessType then
    some (access.upgradeSameTypeAccess newAccessWeakness)
  else if access.weak = newAccessWeakness then
    access.upgradeSameStrengthAccess effectivePrevious newAccessType
  else if !access.weak then
    access.upgradeStrongAccessWithWeak newAccessType
  else access.upgradeWeakAccessWithStrong effectivePrevious newAccessType

end DataAccess

namespace DataAccessSequence

def isEmpty : DataAccessSequence → Bool
  | nil => true
  | cons .. => false

def append : DataAccessSequence → DataAccessSequence → DataAccessSequence
  | nil, other => other
  | cons access subaccesses rest, other =>
      cons access subaccesses (rest.append other)

/-- The sequence of an object that is created after another one. -/
def ofOption : Option DataAccess → DataAccessSequence
  | none => nil
  | some access => cons access nil nil

/-- The access is added to the end of the sequence, before the first access of
which there is `effectivePrevious`. -/
def registerTaskDataAccess (task : Nat) (accessType : DataAccessType)
    (weak : Bool) : Option DataAccess → DataAccessSequence →
      Option (DataAccessSequence × Bool)
  | effectivePrevious, nil =>
      let satisfied := evaluateSatisfiability effectivePrevious accessType
      some (cons ⟨task, accessType, weak, satisfied⟩ nil nil,
        satisfied || weak)
  | effectivePrevious, cons access subaccesses rest =>
      if rest.isEmpty ∧ access.originator = task then
        (access.upgradeAccess effectivePrevious accessType weak).map
          fun upgrade =>
            (cons upgrade.access subaccesses (ofOption upgrade.created),
              upgrade.canStart)
      else
        (registerTaskDataAccess task accessType weak (some access) rest).map
          fun result => (cons access subaccesses result.1, result.2)

/-! ### Unregistration -/

/-- The sequence after the evaluation, with the tasks of the strong accesses that
have become satisfied. -/
def reevaluateAndPropagateSatisfiability :
    Option DataAccess → DataAccessSequence →
      DataAccessSequence × List Nat
  | _, nil => (nil, [])
  | previous, cons access subaccesses rest =>
      if access.satisfied then (cons access subaccesses rest, [])
      else if evaluateSatisfiability previous access.type then
        let current := { access with satisfied := true }
        let inner :=
          if access.weak then
            subaccesses.reevaluateAndPropagateSatisfiability previous
          else (subaccesses, [access.originator])
        let outer :=
          rest.reevaluateAndPropagateSatisfiability (some current)
        (cons current inner.1 outer.1, inner.2 ++ outer.2)
      else (cons access subaccesses rest, [])

/-- The access before the end of the sequence. -/
def last : Option DataAccess → DataAccessSequence → Option DataAccess
  | previous, nil => previous
  | _, cons access _ rest => rest.last (some access)

/-- The access of the task is unregistered. -/
def unregisterDataAccess (task : Nat) : Option DataAccess →
    DataAccessSequence → DataAccessSequence × List Nat
  | _, nil => (nil, [])
  | previous, cons access subaccesses rest =>
      if access.originator = task then
        -- The next access is left alone if it is satisfied.
        let next := rest.reevaluateAndPropagateSatisfiability
          (subaccesses.last previous)
        (subaccesses.append next.1, next.2)
      else
        let inner := subaccesses.unregisterDataAccess task previous
        let outer := rest.unregisterDataAccess task (some access)
        (cons access inner.1 outer.1, inner.2 ++ outer.2)

end DataAccessSequence

end Nanos6.Discrete
