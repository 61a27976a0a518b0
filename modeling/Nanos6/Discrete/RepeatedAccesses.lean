import Nanos6.Discrete.DataAccess

/-!
# Repeated accesses

A task that registers several accesses to a datum has one object at the end of
the sequence, or several.  Which objects these are depends on the type and the
weakness of each registration and on what is before the first object: nothing,
accesses behind which a read is satisfied, or others.  They are followed here
without the sequence.
-/

namespace Nanos6.Discrete

/-- The types that may be combined in one task. -/
inductive CombinedType where
  | read
  | write
  | readwrite
  deriving DecidableEq, Repr

namespace CombinedType

def toDataAccessType : CombinedType → DataAccessType
  | read => .read
  | write => .write
  | readwrite => .readwrite

def writes : CombinedType → Bool
  | read => false
  | _ => true

end CombinedType

structure CombinedAccess where
  type : CombinedType
  weak : Bool
  deriving DecidableEq, Repr

namespace DataAccessSequence

/-- The task registers its accesses one after the other. -/
def registerAll (task : Nat) (effectivePrevious : Option DataAccess) :
    DataAccessSequence → List CombinedAccess → Option DataAccessSequence
  | sequence, [] => some sequence
  | sequence, registration :: rest =>
      (sequence.registerTaskDataAccess task
        registration.type.toDataAccessType registration.weak
        effectivePrevious).bind fun result =>
          registerAll task effectivePrevious result.1 rest

/-- The objects of a task in the sequence. -/
def accessesOf (task : Nat) : DataAccessSequence → List DataAccess
  | nil => []
  | cons access _ rest =>
      if access.originator = task then access :: rest.accessesOf task
      else rest.accessesOf task

def ofList : List DataAccess → DataAccessSequence
  | [] => nil
  | access :: rest => cons access nil (ofList rest)

end DataAccessSequence

/-! ### The objects of a task -/

/-- What is before the objects: whether they are the first ones, and whether a
read would be satisfied. -/
structure Place where
  first : Bool
  readable : Bool
  readable_of_first : first = true → readable = true

def Place.ofPrevious (effectivePrevious : Option DataAccess) : Place where
  first := effectivePrevious.isNone
  readable := evaluateSatisfiability effectivePrevious .read
  readable_of_first := by
    cases effectivePrevious with
    | none => exact fun _ => rfl
    | some previous => exact fun impossible => nomatch impossible

structure Object where
  type : CombinedType
  weak : Bool
  satisfied : Bool
  deriving DecidableEq, Repr

namespace Object

def toDataAccess (task : Nat) (object : Object) : DataAccess where
  originator := task
  type := object.type.toDataAccessType
  weak := object.weak
  satisfied := object.satisfied

/-- The place behind an object. -/
def behind (object : Object) : Place where
  first := false
  readable := object.satisfied && !object.type.writes
  readable_of_first := fun impossible => nomatch impossible

/-- The type that an object takes when no other one is created.  A write becomes
a read. -/
def mergeType : CombinedType → CombinedType → CombinedType
  | .readwrite, _ => .readwrite
  | .write, new => new
  | .read, .read => .read
  | .read, _ => .readwrite

/-- Whether the object is evaluated again as a readwrite. -/
def isReevaluated (object : Object) (registration : CombinedAccess) : Bool :=
  object.type != registration.type && registration.type.writes &&
    (object.weak && !registration.weak ||
      !object.type.writes && object.weak == registration.weak)

/-- The objects in place of one that is upgraded. -/
def upgrade (place : Place) (object : Object) (registration : CombinedAccess) :
    List Object :=
  if !object.type.writes && !object.weak && registration.type.writes &&
      registration.weak then
    [object, ⟨registration.type, true, false⟩]
  else if object.type.writes && object.weak && !registration.type.writes &&
      !registration.weak then
    [⟨.read, false, place.readable⟩, ⟨object.type, true, false⟩]
  else
    [⟨mergeType object.type registration.type,
      object.weak && registration.weak,
      object.satisfied &&
        (!object.isReevaluated registration || place.first)⟩]

def register (registration : CombinedAccess) : Place → List Object →
    List Object
  | place, [] =>
      [⟨registration.type, registration.weak,
        if registration.type.writes then place.first else place.readable⟩]
  | place, [object] => object.upgrade place registration
  | _, object :: next :: rest =>
      object :: register registration object.behind (next :: rest)

def run (place : Place) : List Object → List CombinedAccess → List Object
  | objects, [] => objects
  | objects, registration :: rest =>
      run place (register registration place objects) rest

/-- A strong read is to be put before a weak write that has no access before
it. -/
def dereferencesNull (registration : CombinedAccess) (place : Place) :
    List Object → Bool
  | [object] =>
      place.first && object.type.writes && object.weak &&
        !registration.type.writes && !registration.weak
  | _ => false

/-- One of the registrations fails. -/
def runFails (place : Place) : List Object → List CombinedAccess → Bool
  | _, [] => false
  | objects, registration :: rest =>
      dereferencesNull registration place objects ||
        runFails place (register registration place objects) rest

end Object

/-! ### The sequence with its objects -/

theorem evaluateSatisfiability_toDataAccessType
    (effectivePrevious : Option DataAccess) (type : CombinedType) :
    evaluateSatisfiability effectivePrevious type.toDataAccessType =
      if type.writes then (Place.ofPrevious effectivePrevious).first
      else (Place.ofPrevious effectivePrevious).readable := by
  cases type with
  | read => rfl
  | write =>
      cases effectivePrevious with
      | none => rfl
      | some previous =>
          cases satisfied : previous.satisfied <;>
            simp [evaluateSatisfiability, satisfied, Place.ofPrevious,
              CombinedType.writes, CombinedType.toDataAccessType]
  | readwrite =>
      cases effectivePrevious with
      | none => rfl
      | some previous =>
          cases satisfied : previous.satisfied <;>
            simp [evaluateSatisfiability, satisfied, Place.ofPrevious,
              CombinedType.writes, CombinedType.toDataAccessType]

/-- The upgrade of an object. -/
theorem upgradeAccess_toDataAccess (task : Nat)
    (effectivePrevious : Option DataAccess) (object : Object)
    (registration : CombinedAccess) :
    (((object.toDataAccess task).upgradeAccess effectivePrevious
        registration.type.toDataAccessType registration.weak).map
          fun upgrade => upgrade.access :: upgrade.created.toList) =
      if Object.dereferencesNull registration
          (Place.ofPrevious effectivePrevious) [object] then none
      else some ((object.upgrade (Place.ofPrevious effectivePrevious)
        registration).map (Object.toDataAccess task)) := by
  have readwrite : evaluateSatisfiability effectivePrevious .readwrite =
      (Place.ofPrevious effectivePrevious).first :=
    evaluateSatisfiability_toDataAccessType effectivePrevious .readwrite
  obtain ⟨oldType, oldWeak, satisfied⟩ := object
  obtain ⟨type, weak⟩ := registration
  cases effectivePrevious with
  | none =>
      cases oldType <;> cases type <;> cases oldWeak <;> cases weak <;>
        cases satisfied <;> rfl
  | some previous =>
      cases oldType <;> cases type <;> cases oldWeak <;> cases weak <;>
        cases satisfied
      all_goals first
        | rfl
        | exact congrArg
            (fun flag => some [DataAccess.mk task .readwrite _ flag])
            readwrite

/-- The place behind an object is that behind its access. -/
theorem ofPrevious_toDataAccess (task : Nat) (object : Object) :
    Place.ofPrevious (some (object.toDataAccess task)) = object.behind := by
  obtain ⟨type, weak, satisfied⟩ := object
  cases type <;> cases satisfied <;> rfl

namespace DataAccessSequence

/-- A registration among the objects of the task. -/
theorem registerTaskDataAccess_ofList (task : Nat)
    (registration : CombinedAccess) (effectivePrevious : Option DataAccess)
    (objects : List Object) :
    ((ofList (objects.map (Object.toDataAccess task))).registerTaskDataAccess
        task registration.type.toDataAccessType registration.weak
        effectivePrevious).map Prod.fst =
      if Object.dereferencesNull registration
          (Place.ofPrevious effectivePrevious) objects then none
      else some (ofList ((Object.register registration
        (Place.ofPrevious effectivePrevious) objects).map
          (Object.toDataAccess task))) := by
  induction objects generalizing effectivePrevious with
  | nil =>
      simp only [List.map_nil, ofList, registerTaskDataAccess,
        Option.map_some, Object.dereferencesNull, Bool.false_eq_true,
        if_false, Object.register, List.map_cons, Object.toDataAccess,
        evaluateSatisfiability_toDataAccessType]
  | cons object rest inductionHypothesis =>
      cases rest with
      | nil =>
          have upgraded := upgradeAccess_toDataAccess task effectivePrevious
            object registration
          have shape (upgrade : Upgrade) :
              cons upgrade.access nil (ofOption upgrade.created) =
                ofList (upgrade.access :: upgrade.created.toList) := by
            cases upgrade.created <;> rfl
          simp only [List.map_cons, List.map_nil, ofList,
            registerTaskDataAccess]
          rw [if_pos ⟨rfl, rfl⟩, Option.map_map, Object.register]
          have composed := congrArg (Option.map ofList) upgraded
          rw [Option.map_map] at composed
          simp only [Function.comp_def, shape] at composed ⊢
          rw [composed]
          split
          · rfl
          · rfl
      | cons next rest =>
          have inner :=
            inductionHypothesis (some (object.toDataAccess task))
          have safe : Object.dereferencesNull registration
              (Place.ofPrevious (some (object.toDataAccess task)))
              (next :: rest) = false := by
            cases rest <;> rfl
          rw [safe, if_neg Bool.false_ne_true, ofPrevious_toDataAccess,
            Option.map_eq_some_iff] at inner
          obtain ⟨result, registered, objects⟩ := inner
          rw [List.map_cons, ofList, registerTaskDataAccess, if_neg,
            registered, Option.map_some, Option.map_some, objects,
            Object.register, List.map_cons, ofList]
          · rfl
          · rintro ⟨impossible, -⟩
            cases impossible

theorem accessesOf_append (task : Nat) (sequence other : DataAccessSequence) :
    (sequence.append other).accessesOf task =
      sequence.accessesOf task ++ other.accessesOf task := by
  induction sequence with
  | nil => rfl
  | cons access subaccesses rest _ inductionHypothesis =>
      rw [append, accessesOf, accessesOf]
      split
      · rw [inductionHypothesis, List.cons_append]
      · exact inductionHypothesis

theorem accessesOf_ofList (task : Nat) (objects : List Object) :
    (ofList (objects.map (Object.toDataAccess task))).accessesOf task =
      objects.map (Object.toDataAccess task) := by
  induction objects with
  | nil => rfl
  | cons object rest inductionHypothesis =>
      rw [List.map_cons, ofList, accessesOf, inductionHypothesis]
      exact if_pos rfl

/-- The registrations leave the accesses of other tasks as they are. -/
theorem registerTaskDataAccess_append {task : Nat}
    (registration : CombinedAccess) (objects : List Object)
    {sequence : DataAccessSequence} (absent : sequence.accessesOf task = [])
    (effectivePrevious : Option DataAccess) :
    ((sequence.append (ofList (objects.map
        (Object.toDataAccess task)))).registerTaskDataAccess task
        registration.type.toDataAccessType registration.weak
        effectivePrevious).map Prod.fst =
      if Object.dereferencesNull registration
          (Place.ofPrevious (sequence.last effectivePrevious)) objects then
        none
      else some (sequence.append (ofList ((Object.register registration
        (Place.ofPrevious (sequence.last effectivePrevious)) objects).map
          (Object.toDataAccess task)))) := by
  induction sequence generalizing effectivePrevious with
  | nil =>
      exact registerTaskDataAccess_ofList task registration
        effectivePrevious objects
  | cons access subaccesses rest _ inductionHypothesis =>
      have other : access.originator ≠ task := by
        intro same
        rw [accessesOf, if_pos same] at absent
        cases absent
      rw [accessesOf, if_neg other] at absent
      have inner := congrArg (Option.map (cons access subaccesses))
        (inductionHypothesis absent (some access))
      rw [Option.map_map] at inner
      rw [append, registerTaskDataAccess, if_neg (fun both => other both.2),
        Option.map_map]
      refine inner.trans ?_
      rw [last]
      split
      · rfl
      · rfl

theorem registerAll_append {task : Nat} (registrations : List CombinedAccess)
    {sequence : DataAccessSequence} (absent : sequence.accessesOf task = [])
    (effectivePrevious : Option DataAccess) (objects : List Object) :
    (sequence.append (ofList (objects.map
      (Object.toDataAccess task)))).registerAll task effectivePrevious
        registrations =
      if Object.runFails (Place.ofPrevious (sequence.last effectivePrevious))
          objects registrations then none
      else some (sequence.append (ofList ((Object.run
        (Place.ofPrevious (sequence.last effectivePrevious)) objects
          registrations).map (Object.toDataAccess task)))) := by
  induction registrations generalizing objects with
  | nil => rfl
  | cons registration rest inductionHypothesis =>
      have registered := registerTaskDataAccess_append registration objects
        absent effectivePrevious
      rw [registerAll, Object.runFails, Object.run]
      split at registered
      · rename_i fails
        rw [Option.map_eq_none_iff.mp registered, fails]
        rfl
      · rename_i goes
        obtain ⟨result, found, next⟩ := Option.map_eq_some_iff.mp registered
        rw [found, Option.bind_some, next, inductionHypothesis,
          Bool.eq_false_iff.mpr goes, Bool.false_or]

theorem append_nil (sequence : DataAccessSequence) :
    sequence.append nil = sequence := by
  induction sequence with
  | nil => rfl
  | cons access subaccesses rest _ inductionHypothesis =>
      rw [append, inductionHypothesis]

/-- All registrations of a task that has no access in the sequence. -/
theorem registerAll_eq {task : Nat} {sequence : DataAccessSequence}
    (absent : sequence.accessesOf task = [])
    (effectivePrevious : Option DataAccess)
    (registrations : List CombinedAccess) :
    (sequence.registerAll task effectivePrevious registrations).map
        (accessesOf task) =
      if Object.runFails (Place.ofPrevious (sequence.last effectivePrevious))
          [] registrations then none
      else some ((Object.run (Place.ofPrevious
        (sequence.last effectivePrevious)) [] registrations).map
          (Object.toDataAccess task)) := by
  have registered := registerAll_append registrations absent
    effectivePrevious []
  rw [List.map_nil, ofList, append_nil] at registered
  rw [registered]
  split
  · rfl
  · rw [Option.map_some, accessesOf_append, absent, List.nil_append,
      accessesOf_ofList]

end DataAccessSequence

end Nanos6.Discrete
