import Nanos6.Discrete.RepeatedAccesses

/-!
# The order of upgrades

The objects of a task should not depend on the order in which it registers its
accesses.  They do, for three reasons: a write that is combined with a read
becomes a read, only the last object is combined with further registrations, and
a write that has become a read keeps the satisfiability of the write.
-/

namespace Nanos6.Discrete

namespace CombinedAccess

abbrev weakRead : CombinedAccess := ⟨.read, true⟩
abbrev read : CombinedAccess := ⟨.read, false⟩
abbrev weakWrite : CombinedAccess := ⟨.write, true⟩
abbrev write : CombinedAccess := ⟨.write, false⟩
abbrev weakReadwrite : CombinedAccess := ⟨.readwrite, true⟩
abbrev readwrite : CombinedAccess := ⟨.readwrite, false⟩

def writes (registration : CombinedAccess) : Bool :=
  registration.type.writes

end CombinedAccess

open CombinedAccess

/-- Reads with weak writes, of which the objects are those of the strong read and
of the writes. -/
structure Mixes (place : Place) (registrations : List CombinedAccess) :
    Prop where
  noWrite : write ∉ registrations
  noReadwrite : readwrite ∉ registrations
  oneRead : registrations.count read ≤ 1
  covered : weakRead ∉ registrations ∨
    weakReadwrite ∈ registrations ∧
      (read ∉ registrations ∨ weakWrite ∉ registrations ∨
        place.readable = place.first)

/-- The registrations that give the same objects in any order. -/
def Commutes (place : Place) (registrations : List CombinedAccess) : Prop :=
  (∀ registration ∈ registrations, registration.writes = true) ∨
  (∀ registration ∈ registrations, registration.writes = false) ∨
  (readwrite ∈ registrations ∧
    (read ∉ registrations ∧ write ∉ registrations ∨
      weakWrite ∉ registrations ∧ weakReadwrite ∉ registrations)) ∨
  Mixes place registrations

namespace Object

/-- An object up to the difference between a write and a readwrite. -/
def essential (object : Object) : Object :=
  { object with
    type := if object.type.writes then .readwrite else .read }

variable {place : Place}

/-! ### Runs -/

theorem run_append (objects : List Object)
    (first second : List CombinedAccess) :
    run place objects (first ++ second) =
      run place (run place objects first) second := by
  induction first generalizing objects with
  | nil => rfl
  | cons registration rest inductionHypothesis =>
      exact inductionHypothesis _

theorem run_invariant (Invariant : List Object → Prop)
    {registrations : List CombinedAccess}
    (step : ∀ objects, Invariant objects →
      ∀ registration ∈ registrations,
        Invariant (register registration place objects))
    {objects : List Object} (holds : Invariant objects) :
    Invariant (run place objects registrations) := by
  induction registrations generalizing objects with
  | nil => exact holds
  | cons registration rest inductionHypothesis =>
      exact inductionHypothesis
        (fun objects holds registration member =>
          step objects holds registration (List.mem_cons_of_mem _ member))
        (step objects holds registration List.mem_cons_self)

theorem run_fixed {registrations : List CombinedAccess}
    {objects : List Object}
    (fixed : ∀ registration ∈ registrations,
      register registration place objects = objects) :
    run place objects registrations = objects :=
  run_invariant (· = objects) (fun _ equal registration member => by
    rw [equal]
    exact fixed registration member) rfl

theorem length_register (registration : CombinedAccess) (place : Place)
    (objects : List Object) :
    objects.length ≤ (register registration place objects).length := by
  induction objects generalizing place with
  | nil => exact Nat.zero_le _
  | cons object rest inductionHypothesis =>
      cases rest with
      | nil =>
          rw [register, upgrade]
          split
          · exact Nat.le_succ _
          · split
            · exact Nat.le_succ _
            · exact Nat.le_refl _
      | cons next rest =>
          exact Nat.succ_le_succ (inductionHypothesis object.behind)

theorem length_run (objects : List Object)
    (registrations : List CombinedAccess) :
    objects.length ≤ (run place objects registrations).length :=
  run_invariant (fun later => objects.length ≤ later.length)
    (fun _ holds registration _ =>
      Nat.le_trans holds (length_register registration place _))
    (Nat.le_refl _)

/-! ### A single object -/

/-- The satisfiability of an object follows from what is before it. -/
structure Settled (place : Place) (object : Object) : Prop where
  ofWrites : object.type.writes = true → object.satisfied = place.first
  ofFirst : place.first = true → object.satisfied = true
  readable : object.satisfied = true → place.readable = true

/-- The first object of a task. -/
def fresh (place : Place) (registration : CombinedAccess) : Object where
  type := registration.type
  weak := registration.weak
  satisfied :=
    if registration.type.writes then place.first else place.readable

theorem settled_fresh (registration : CombinedAccess) :
    Settled place (fresh place registration) := by
  have readable := place.readable_of_first
  refine ⟨fun writes => if_pos writes, fun first => ?_, fun satisfied => ?_⟩
  · unfold fresh
    dsimp only
    split
    · exact first
    · exact readable first
  · unfold fresh at satisfied
    dsimp only at satisfied
    split at satisfied
    · exact readable satisfied
    · exact satisfied

/-- No second object is created. -/
def Merges (object : Object) (registration : CombinedAccess) : Prop :=
  (object.type.writes = false → object.weak = false →
    registration.weak = true → registration.writes = false) ∧
  (object.type.writes = true → object.weak = true →
    registration.weak = false → registration.writes = true)

/-- The object that is left when none is created. -/
def merged (place : Place) (object : Object) (registration : CombinedAccess) :
    Object where
  type := mergeType object.type registration.type
  weak := object.weak && registration.weak
  satisfied :=
    object.satisfied && (!object.isReevaluated registration || place.first)

theorem upgrade_of_merges {object : Object} {registration : CombinedAccess}
    (merges : object.Merges registration) :
    object.upgrade place registration = [merged place object registration] := by
  obtain ⟨type, weak, satisfied⟩ := object
  obtain ⟨newType, newWeak⟩ := registration
  unfold Merges at merges
  unfold upgrade merged
  cases type <;> cases newType <;> cases weak <;> cases newWeak <;>
    simp_all [CombinedType.writes, writes]

/-- An object that becomes writing is evaluated again. -/
theorem isReevaluated_of_merges {object : Object}
    {registration : CombinedAccess} (merges : object.Merges registration)
    (reads : object.type.writes = false)
    (becomes : (mergeType object.type registration.type).writes = true) :
    object.isReevaluated registration = true := by
  obtain ⟨type, weak, satisfied⟩ := object
  obtain ⟨newType, newWeak⟩ := registration
  have strength := merges.1 reads
  cases type with
  | read =>
      cases newType with
      | read => cases becomes
      | write =>
          cases weak <;> cases newWeak <;>
            first | rfl | cases strength rfl rfl
      | readwrite =>
          cases weak <;> cases newWeak <;>
            first | rfl | cases strength rfl rfl
  | write => cases reads
  | readwrite => cases reads

/-- A merged object is settled. -/
theorem settled_of_merges {object : Object} {registration : CombinedAccess}
    (settled : Settled place object)
    (merges : object.Merges registration) :
    Settled place (merged place object registration) := by
  unfold merged
  cases reevaluated : object.isReevaluated registration with
  | true =>
      have first : (object.satisfied && (!true || place.first)) =
          place.first := by
        rw [Bool.not_true, Bool.false_or]
        cases first : place.first with
        | false => exact Bool.and_false _
        | true => rw [settled.ofFirst first, Bool.and_true]
      rw [first]
      exact ⟨fun _ => rfl, id, place.readable_of_first⟩
  | false =>
      rw [Bool.not_false, Bool.true_or, Bool.and_true]
      refine ⟨fun becomes => ?_, settled.ofFirst, settled.readable⟩
      cases writes : object.type.writes with
      | true => exact settled.ofWrites writes
      | false =>
          rw [isReevaluated_of_merges merges writes becomes] at reevaluated
          cases reevaluated

/-- There is at most one object, which is settled. -/
def AtMostOne (place : Place) (Allowed : Object → Prop)
    (objects : List Object) : Prop :=
  objects = [] ∨ ∃ object, objects = [object] ∧ Settled place object ∧
    Allowed object

theorem atMostOne_run (Allowed : Object → Prop)
    {registrations : List CombinedAccess}
    (start : ∀ registration ∈ registrations,
      Allowed (fresh place registration))
    (step : ∀ registration ∈ registrations, ∀ object,
      Settled place object → Allowed object →
        object.Merges registration ∧
          Allowed (merged place object registration)) :
    AtMostOne place Allowed (run place [] registrations) := by
  apply run_invariant (AtMostOne place Allowed) _ (Or.inl rfl)
  rintro _ (rfl | ⟨object, rfl, settled, allowed⟩) registration member
  · exact Or.inr ⟨_, rfl, settled_fresh registration,
      start registration member⟩
  · obtain ⟨merges, later⟩ := step registration member object settled allowed
    exact Or.inr ⟨_, upgrade_of_merges merges,
      settled_of_merges settled merges, later⟩

/-- Weak registrations have one weak object. -/
theorem atMostOne_of_weak {registrations : List CombinedAccess}
    (weak : ∀ registration ∈ registrations, registration.weak = true) :
    AtMostOne place (fun object => object.weak = true)
      (run place [] registrations) := by
  apply atMostOne_run
  · exact weak
  · intro registration member object settled isWeak
    have new := weak registration member
    refine ⟨⟨fun _ strong _ => ?_, fun _ _ strong => ?_⟩, ?_⟩
    · rw [isWeak] at strong
      cases strong
    · rw [new] at strong
      cases strong
    · unfold merged
      rw [isWeak, new]
      rfl

/-- Without strong reads and writes, a strong object is a readwrite. -/
theorem atMostOne_of_no_strong {registrations : List CombinedAccess}
    (noRead : read ∉ registrations) (noWrite : write ∉ registrations) :
    AtMostOne place
      (fun object => object.weak = false → object.type = .readwrite)
      (run place [] registrations) := by
  have strongReadwrite : ∀ registration ∈ registrations,
      registration.weak = false → registration.type = .readwrite := by
    rintro ⟨type, weak⟩ member rfl
    cases type with
    | read => exact absurd member noRead
    | write => exact absurd member noWrite
    | readwrite => rfl
  apply atMostOne_run
  · exact strongReadwrite
  · intro registration member object settled allowed
    refine ⟨⟨fun reads strong _ => ?_, fun _ _ strong => ?_⟩,
      fun strong => ?_⟩
    · rw [allowed strong] at reads
      cases reads
    · unfold writes
      rw [strongReadwrite registration member strong]
      rfl
    · unfold merged at strong ⊢
      rcases Bool.and_eq_false_iff.mp strong with old | new
      · rw [allowed old]
        rfl
      · rw [strongReadwrite registration member new]
        cases object.type <;> rfl

/-- Without weak writes, a writing object is strong. -/
theorem atMostOne_of_no_weak {registrations : List CombinedAccess}
    (noWrite : weakWrite ∉ registrations)
    (noReadwrite : weakReadwrite ∉ registrations) :
    AtMostOne place
      (fun object => object.type.writes = true → object.weak = false)
      (run place [] registrations) := by
  have strongWrites : ∀ registration ∈ registrations,
      registration.writes = true → registration.weak = false := by
    rintro ⟨type, weak⟩ member isWriting
    cases weak with
    | false => rfl
    | true =>
        cases type with
        | read => cases isWriting
        | write => exact absurd member noWrite
        | readwrite => exact absurd member noReadwrite
  apply atMostOne_run
  · exact strongWrites
  · intro registration member object settled allowed
    refine ⟨⟨fun _ _ weak => ?_, fun isWriting weak _ => ?_⟩,
      fun isWriting => ?_⟩
    · cases new : registration.writes with
      | false => rfl
      | true =>
          rw [strongWrites registration member new] at weak
          cases weak
    · rw [allowed isWriting] at weak
      cases weak
    · unfold merged at isWriting ⊢
      cases new : registration.writes with
      | true =>
          rw [strongWrites registration member new]
          exact Bool.and_false _
      | false =>
          have old : object.type.writes = true := by
            unfold writes at new
            cases type : object.type with
            | read =>
                rw [type] at isWriting
                cases newType : registration.type with
                | read =>
                    rw [newType] at isWriting
                    cases isWriting
                | write =>
                    rw [newType] at new
                    cases new
                | readwrite =>
                    rw [newType] at new
                    cases new
            | write => rfl
            | readwrite => rfl
          rw [allowed old]
          rfl

/-! ### Readwrites -/

theorem register_readwrite {Allowed : Object → Prop} {objects : List Object}
    (one : AtMostOne place Allowed objects) :
    register readwrite place objects = [⟨.readwrite, false, place.first⟩] := by
  obtain rfl | ⟨object, rfl, settled, -⟩ := one
  · rfl
  · have merges : object.Merges readwrite :=
      ⟨fun _ _ weak => (nomatch weak), fun _ _ _ => rfl⟩
    have type : mergeType object.type .readwrite = .readwrite := by
      cases object.type <;> rfl
    have flag := (settled_of_merges settled merges).ofWrites (by
      unfold merged
      rw [type]
      rfl)
    rw [register, upgrade_of_merges merges, ← flag]
    unfold merged
    rw [type, Bool.and_false]

theorem register_weakReadwrite {objects : List Object}
    (one : AtMostOne place (fun object => object.weak = true) objects) :
    register weakReadwrite place objects =
      [⟨.readwrite, true, place.first⟩] := by
  obtain rfl | ⟨object, rfl, settled, weak⟩ := one
  · rfl
  · have merges : object.Merges weakReadwrite := by
      refine ⟨fun _ strong _ => ?_, fun _ _ _ => rfl⟩
      rw [weak] at strong
      cases strong
    have type : mergeType object.type .readwrite = .readwrite := by
      cases object.type <;> rfl
    have flag := (settled_of_merges settled merges).ofWrites (by
      unfold merged
      rw [type]
      rfl)
    rw [register, upgrade_of_merges merges, ← flag]
    unfold merged
    rw [type, weak, Bool.and_true]

/-- The object is as restrictive as possible. -/
theorem run_readwrite (satisfied : Bool) (registrations : List CombinedAccess) :
    run place [⟨.readwrite, false, satisfied⟩] registrations =
      [⟨.readwrite, false, satisfied⟩] := by
  apply run_fixed
  rintro ⟨type, weak⟩ -
  cases type <;> cases weak <;> cases satisfied <;> rfl

theorem run_weakReadwrite (satisfied : Bool)
    {registrations : List CombinedAccess}
    (weak : ∀ registration ∈ registrations, registration.weak = true) :
    run place [⟨.readwrite, true, satisfied⟩] registrations =
      [⟨.readwrite, true, satisfied⟩] := by
  apply run_fixed
  rintro ⟨type, isWeak⟩ member
  cases weak _ member
  cases type <;> cases satisfied <;> rfl

theorem run_of_readwrite_mem {registrations : List CombinedAccess}
    (member : readwrite ∈ registrations)
    (one : ∀ before, before.Sublist registrations →
      ∃ Allowed, AtMostOne place Allowed (run place [] before)) :
    run place [] registrations = [⟨.readwrite, false, place.first⟩] := by
  obtain ⟨before, after, rfl⟩ := List.append_of_mem member
  obtain ⟨Allowed, one⟩ := one before (List.sublist_append_left _ _)
  rw [run_append, run, register_readwrite one, run_readwrite]

theorem run_of_weakReadwrite_mem {registrations : List CombinedAccess}
    (member : weakReadwrite ∈ registrations)
    (weak : ∀ registration ∈ registrations, registration.weak = true) :
    run place [] registrations = [⟨.readwrite, true, place.first⟩] := by
  obtain ⟨before, after, rfl⟩ := List.append_of_mem member
  have one : AtMostOne place (fun object => object.weak = true)
      (run place [] before) :=
    atMostOne_of_weak fun registration member =>
      weak registration (List.mem_append_left _ member)
  rw [run_append, run, register_weakReadwrite one]
  exact run_weakReadwrite _ fun registration member =>
    weak registration (List.mem_append_right _
      (List.mem_cons_of_mem _ member))

/-! ### Only writes or only reads -/

theorem run_of_writes {registrations : List CombinedAccess}
    (allWrite : ∀ registration ∈ registrations,
      registration.writes = true) {object : Object}
    (settled : Settled place object)
    (isWriting : object.type.writes = true) :
    (run place [object] registrations).map essential =
      [⟨.readwrite, object.weak && registrations.all CombinedAccess.weak,
        place.first⟩] := by
  induction registrations generalizing object with
  | nil =>
      rw [run, List.map_singleton, essential, isWriting, if_pos rfl,
        settled.ofWrites isWriting, List.all_nil, Bool.and_true]
  | cons registration rest inductionHypothesis =>
      have new := allWrite registration List.mem_cons_self
      have merges : object.Merges registration := by
        refine ⟨fun reads => ?_, fun _ _ _ => new⟩
        rw [isWriting] at reads
        cases reads
      have becomes : (merged place object registration).type.writes =
          true := by
        unfold merged
        unfold writes at new
        cases type : object.type with
        | read =>
            rw [type] at isWriting
            cases isWriting
        | write => exact new
        | readwrite => rfl
      rw [run, register, upgrade_of_merges merges, inductionHypothesis
        (fun registration member =>
          allWrite registration (List.mem_cons_of_mem _ member))
        (settled_of_merges settled merges) becomes, List.all_cons,
        ← Bool.and_assoc]
      rfl

theorem run_of_reads {registrations : List CombinedAccess}
    (noWrite : ∀ registration ∈ registrations,
      registration.writes = false) (weak satisfied : Bool) :
    run place [⟨.read, weak, satisfied⟩] registrations =
      [⟨.read, weak && registrations.all CombinedAccess.weak, satisfied⟩] := by
  induction registrations generalizing weak with
  | nil => rw [run, List.all_nil, Bool.and_true]
  | cons registration rest inductionHypothesis =>
      obtain ⟨type, newWeak⟩ := registration
      have new := noWrite _ List.mem_cons_self
      cases type with
      | read =>
          have step : register ⟨.read, newWeak⟩ place
              [⟨.read, weak, satisfied⟩] =
                [⟨.read, weak && newWeak, satisfied⟩] := by
            cases weak <;> cases newWeak <;> cases satisfied <;> rfl
          rw [run, step, inductionHypothesis
            (fun registration member =>
              noWrite registration (List.mem_cons_of_mem _ member)),
            List.all_cons, Bool.and_assoc]
      | write => cases new
      | readwrite => cases new

/-! ### A strong read with weak writes -/

/-- A strong read, with at most one weak object behind it. -/
def Behind (satisfied : Bool) (objects : List Object) : Prop :=
  objects = [⟨.read, false, satisfied⟩] ∨
    ∃ type, objects = [⟨.read, false, satisfied⟩, ⟨type, true, false⟩]

theorem behind_run {satisfied : Bool} {registrations : List CombinedAccess}
    (weak : ∀ registration ∈ registrations, registration.weak = true)
    {objects : List Object} (behind : Behind satisfied objects) :
    Behind satisfied (run place objects registrations) := by
  apply run_invariant (Behind satisfied) _ behind
  rintro _ (rfl | ⟨type, rfl⟩) ⟨newType, newWeak⟩ member
  · cases weak _ member
    cases newType with
    | read =>
        left
        cases satisfied <;> rfl
    | write => exact Or.inr ⟨.write, rfl⟩
    | readwrite => exact Or.inr ⟨.readwrite, rfl⟩
  · cases weak _ member
    refine Or.inr ⟨mergeType type newType, ?_⟩
    cases type <;> cases newType <;> rfl

/-- The first strong read after weak registrations. -/
theorem behind_register_read {objects : List Object}
    (one : AtMostOne place (fun object => object.weak = true) objects) :
    ∃ satisfied, Behind satisfied (register read place objects) ∧
      (satisfied = place.readable ∨ ∃ object, objects = [object] ∧
        object.type = .read ∧ satisfied = object.satisfied) := by
  obtain rfl | ⟨⟨type, weak, satisfied⟩, rfl, settled, isWeak⟩ := one
  · exact ⟨_, Or.inl rfl, Or.inl rfl⟩
  · cases isWeak
    cases type with
    | read =>
        refine ⟨satisfied, Or.inl ?_, Or.inr ⟨_, rfl, rfl, rfl⟩⟩
        cases satisfied <;> rfl
    | write => exact ⟨_, Or.inr ⟨.write, rfl⟩, Or.inl rfl⟩
    | readwrite => exact ⟨_, Or.inr ⟨.readwrite, rfl⟩, Or.inl rfl⟩

theorem register_weakReadwrite_of_behind {satisfied : Bool}
    {objects : List Object} (behind : Behind satisfied objects) :
    register weakReadwrite place objects =
      [⟨.read, false, satisfied⟩, ⟨.readwrite, true, false⟩] := by
  obtain rfl | ⟨type, rfl⟩ := behind
  · rfl
  · cases type <;> rfl

theorem run_of_behind {satisfied : Bool} {registrations : List CombinedAccess}
    (weak : ∀ registration ∈ registrations, registration.weak = true) :
    run place [⟨.read, false, satisfied⟩, ⟨.readwrite, true, false⟩]
        registrations =
      [⟨.read, false, satisfied⟩, ⟨.readwrite, true, false⟩] := by
  apply run_fixed
  rintro ⟨type, isWeak⟩ member
  cases weak _ member
  cases type <;> rfl

/-- A weak read that was never a weak write is satisfied as a read. -/
theorem satisfied_of_no_weakWrite {registrations : List CombinedAccess}
    (weak : ∀ registration ∈ registrations, registration.weak = true)
    (noWrite : weakWrite ∉ registrations) :
    AtMostOne place
      (fun object => object.weak = true ∧ object.type ≠ .write ∧
        (object.type = .read → object.satisfied = place.readable))
      (run place [] registrations) := by
  apply atMostOne_run
  · rintro ⟨type, isWeak⟩ member
    cases weak _ member
    cases type with
    | read => exact ⟨rfl, nofun, fun _ => rfl⟩
    | write => exact absurd member noWrite
    | readwrite => exact ⟨rfl, nofun, nofun⟩
  · rintro ⟨newType, newWeak⟩ member ⟨type, isWeak, satisfied⟩ settled
      ⟨isWeak, notWrite, ofRead⟩
    cases weak _ member
    cases isWeak
    refine ⟨⟨nofun, fun _ _ => nofun⟩, ?_⟩
    cases newType with
    | write => exact absurd member noWrite
    | read =>
        cases type with
        | read =>
            refine ⟨rfl, nofun, fun _ => ?_⟩
            rw [← ofRead rfl]
            cases satisfied <;> rfl
        | write => exact absurd rfl notWrite
        | readwrite => exact ⟨rfl, nofun, nofun⟩
    | readwrite =>
        cases type with
        | read => exact ⟨rfl, nofun, nofun⟩
        | write => exact absurd rfl notWrite
        | readwrite => exact ⟨rfl, nofun, nofun⟩

/-- The strong read is satisfied as a read, whatever is registered before. -/
theorem satisfied_register_read {registrations : List CombinedAccess}
    (weak : ∀ registration ∈ registrations, registration.weak = true)
    (kept : weakWrite ∉ registrations ∨ place.readable = place.first) :
    Behind place.readable
      (register read place (run place [] registrations)) := by
  have one : AtMostOne place (fun object => object.weak = true)
      (run place [] registrations) := atMostOne_of_weak weak
  obtain ⟨satisfied, behind, flag⟩ := behind_register_read one
  have equal : satisfied = place.readable := by
    rcases flag with equal | ⟨object, objects, type, equal⟩
    · exact equal
    · rw [equal]
      rcases kept with noWrite | same
      · rcases satisfied_of_no_weakWrite weak noWrite with
          none | ⟨other, others, -, -, -, ofRead⟩
        · rw [none] at objects
          cases objects
        · rw [objects] at others
          obtain rfl := List.singleton_inj.mp others
          exact ofRead type
      · rcases one with none | ⟨other, others, settled, -⟩
        · rw [none] at objects
          cases objects
        · rw [objects] at others
          obtain rfl := List.singleton_inj.mp others
          cases first : place.first with
          | true =>
              rw [settled.ofFirst first, place.readable_of_first first]
          | false =>
              rw [same, first]
              cases flag : object.satisfied with
              | false => rfl
              | true =>
                  have readable := settled.readable flag
                  rw [same, first] at readable
                  cases readable
  rw [← equal]
  exact behind

/-- A strong read with the weak writes behind it. -/
def readBehind (satisfied : Bool) : List Object :=
  [⟨.read, false, satisfied⟩, ⟨.readwrite, true, false⟩]

theorem essential_run_of_writes {satisfied : Bool} {type : CombinedType}
    (isWriting : type.writes = true) {registrations : List CombinedAccess}
    (weak : ∀ registration ∈ registrations, registration.weak = true)
    (allWrite : ∀ registration ∈ registrations,
      registration.writes = true) :
    (run place [⟨.read, false, satisfied⟩, ⟨type, true, false⟩]
      registrations).map essential = readBehind satisfied := by
  obtain ⟨last, lastWrites, equal⟩ : ∃ last : CombinedType,
      last.writes = true ∧
        run place [⟨.read, false, satisfied⟩, ⟨type, true, false⟩]
          registrations =
            [⟨.read, false, satisfied⟩, ⟨last, true, false⟩] := by
    refine run_invariant (fun objects => ∃ last : CombinedType,
      last.writes = true ∧
        objects = [⟨.read, false, satisfied⟩, ⟨last, true, false⟩]) ?_
      ⟨type, isWriting, rfl⟩
    rintro _ ⟨last, isWriting, rfl⟩ ⟨newType, newWeak⟩ member
    cases weak _ member
    have new := allWrite _ member
    refine ⟨mergeType last newType, ?_, ?_⟩
    · cases last with
      | read => cases isWriting
      | write => exact new
      | readwrite => rfl
    · cases last <;> cases newType <;> rfl
  rw [equal]
  cases last with
  | read => cases lastWrites
  | write => rfl
  | readwrite => rfl

/-- Weak writes around a strong read. -/
theorem essential_run_around {before after : List CombinedAccess}
    (weak : ∀ registration ∈ before ++ after, registration.weak = true)
    (allWrite : ∀ registration ∈ before ++ after,
      registration.writes = true) (some : before ++ after ≠ []) :
    (run place [] (before ++ read :: after)).map essential =
      readBehind place.readable := by
  cases before with
  | nil =>
      cases after with
      | nil => exact absurd rfl some
      | cons registration rest =>
          obtain ⟨type, isWeak⟩ := registration
          have isWriting := allWrite _ List.mem_cons_self
          cases weak _ List.mem_cons_self
          have second : register ⟨type, true⟩ place
              [⟨.read, false, place.readable⟩] =
                [⟨.read, false, place.readable⟩, ⟨type, true, false⟩] := by
            cases type with
            | read => cases isWriting
            | write => rfl
            | readwrite => rfl
          change (run place (register ⟨type, true⟩ place
            [⟨.read, false, place.readable⟩]) rest).map essential = _
          rw [second]
          exact essential_run_of_writes isWriting
            (fun registration member =>
              weak registration (List.mem_cons_of_mem _ member))
            fun registration member =>
              allWrite registration (List.mem_cons_of_mem _ member)
  | cons registration rest =>
      have allWeak : (registration.weak && rest.all CombinedAccess.weak) =
          true := by
        rw [← List.all_cons]
        exact List.all_eq_true.mpr fun registration member =>
          weak registration (List.mem_append_left _ member)
      have first := run_of_writes (fun registration member =>
        allWrite registration (List.mem_append_left _
          (List.mem_cons_of_mem _ member)))
        (settled_fresh registration : Settled place _)
        (allWrite registration List.mem_cons_self)
      obtain ⟨⟨type, isWeak, satisfied⟩, single, equal⟩ :=
        List.map_eq_singleton_iff.mp first
      rw [show (fresh place registration).weak = registration.weak from rfl,
        allWeak] at equal
      have later : (run place [⟨.read, false, place.readable⟩,
          ⟨type, true, false⟩] after).map essential =
            readBehind place.readable := by
        apply essential_run_of_writes
        · cases type with
          | read => cases congrArg Object.type equal
          | write => rfl
          | readwrite => rfl
        · exact fun registration member =>
            weak registration (List.mem_append_right _ member)
        · exact fun registration member =>
            allWrite registration (List.mem_append_right _ member)
      rw [run_append, run]
      change (run place (register read place
        (run place [fresh place registration] rest)) after).map
          essential = _
      rw [single]
      cases congrArg Object.weak equal
      cases type with
      | read => cases congrArg Object.type equal
      | write => exact later
      | readwrite => exact later

/-- A weak readwrite before or after the strong read. -/
theorem essential_run_of_covered {before after : List CombinedAccess}
    (weak : ∀ registration ∈ before ++ after, registration.weak = true)
    (covered : weakReadwrite ∈ before ++ read :: after)
    (kept : weakWrite ∉ before ++ read :: after ∨
      place.readable = place.first) :
    (run place [] (before ++ read :: after)).map essential =
      readBehind place.readable := by
  have weakBefore : ∀ registration ∈ before, registration.weak = true :=
    fun registration member =>
      weak registration (List.mem_append_left _ member)
  have weakAfter : ∀ registration ∈ after, registration.weak = true :=
    fun registration member =>
      weak registration (List.mem_append_right _ member)
  rw [run_append, run]
  rcases List.mem_append.mp covered with inBefore | inRest
  · rw [run_of_weakReadwrite_mem inBefore weakBefore]
    change (run place [⟨.read, false, place.readable⟩,
      ⟨.readwrite, true, false⟩] after).map essential = _
    rw [run_of_behind weakAfter]
    rfl
  · rcases List.mem_cons.mp inRest with impossible | inAfter
    · cases impossible
    · have behind := satisfied_register_read weakBefore
        (kept.imp_left fun noWrite member =>
          noWrite (List.mem_append_left _ member))
      obtain ⟨middle, rest, rfl⟩ := List.append_of_mem inAfter
      have weakMiddle : ∀ registration ∈ middle,
          registration.weak = true :=
        fun registration member =>
          weakAfter registration (List.mem_append_left _ member)
      rw [run_append, run, register_weakReadwrite_of_behind
        (behind_run weakMiddle behind), run_of_behind
        fun registration member => weakAfter registration
          (List.mem_append_right _ (List.mem_cons_of_mem _ member))]
      rfl

/-- Reads with weak writes have a strong read, if there is one, with a weak
write behind it. -/
theorem essential_run_of_mixes {registrations : List CombinedAccess}
    (mixes : Mixes place registrations)
    (write : ∃ registration ∈ registrations, registration.writes = true)
    (read : ∃ registration ∈ registrations, registration.writes = false) :
    (run place [] registrations).map essential =
      if CombinedAccess.read ∈ registrations then readBehind place.readable
      else [⟨.readwrite, true, place.first⟩] := by
  have strong : ∀ registration ∈ registrations,
      registration ≠ CombinedAccess.read → registration.weak = true := by
    rintro ⟨type, weak⟩ member other
    cases weak with
    | true => rfl
    | false =>
        cases type with
        | read => exact absurd rfl other
        | write => exact absurd member mixes.noWrite
        | readwrite => exact absurd member mixes.noReadwrite
  split
  · rename_i member
    obtain ⟨before, after, rfl⟩ := List.append_of_mem member
    have within : ∀ {registration}, registration ∈ before ++ after →
        registration ∈ before ++ CombinedAccess.read :: after := by
      intro registration member
      rcases List.mem_append.mp member with inBefore | inAfter
      · exact List.mem_append_left _ inBefore
      · exact List.mem_append_right _ (List.mem_cons_of_mem _ inAfter)
    have others : CombinedAccess.read ∉ before ++ after := by
      have once := mixes.oneRead
      rw [List.count_append, List.count_cons_self] at once
      rw [← List.count_eq_zero, List.count_append]
      omega
    have weak : ∀ registration ∈ before ++ after,
        registration.weak = true := by
      intro registration inOthers
      apply strong registration (within inOthers)
      rintro rfl
      exact others inOthers
    rcases mixes.covered with noWeakRead | ⟨covered, kept⟩
    · apply essential_run_around weak
      · rintro ⟨type, isWeak⟩ inOthers
        cases type with
        | read =>
            cases weak _ inOthers
            exact absurd (within inOthers) noWeakRead
        | write => rfl
        | readwrite => rfl
      · intro none
        obtain ⟨rfl, rfl⟩ := List.append_eq_nil_iff.mp none
        obtain ⟨registration, inOthers, isWriting⟩ := write
        rw [List.mem_singleton.mp inOthers] at isWriting
        cases isWriting
    · exact essential_run_of_covered weak covered
        (kept.resolve_left (not_not_intro member))
  · rename_i noRead
    have weak : ∀ registration ∈ registrations,
        registration.weak = true := by
      intro registration member
      apply strong registration member
      rintro rfl
      exact noRead member
    have covered : weakReadwrite ∈ registrations := by
      rcases mixes.covered with noWeakRead | ⟨covered, -⟩
      · obtain ⟨⟨type, isWeak⟩, member, reads⟩ := read
        cases weak _ member
        cases type with
        | read => exact absurd member noWeakRead
        | write => cases reads
        | readwrite => cases reads
      · exact covered
    rw [run_of_weakReadwrite_mem covered weak]
    rfl

end Object

end Nanos6.Discrete
