import Nanos6.Discrete.UpgradeOrder

/-!
# Upgrades that lose an access

When the registrations of a task do not commute, two orders of them leave
different objects.  When they do, no conflict and no strong write is lost either,
unless a strong read comes to a weak write before which there is no access.
-/

namespace Nanos6.Discrete

open CombinedAccess

namespace Object

variable {place : Place} {registrations : List CombinedAccess}

/-! ### The objects of registrations that commute -/

/-- What the registrations leave, up to the difference between a write and a
readwrite. -/
def outcome (place : Place) (registrations : List CombinedAccess) :
    List Object :=
  if ∀ registration ∈ registrations, registration.writes = true then
    [⟨.readwrite, registrations.all CombinedAccess.weak, place.first⟩]
  else if ∀ registration ∈ registrations, registration.writes = false then
    [⟨.read, registrations.all CombinedAccess.weak, place.readable⟩]
  else if readwrite ∈ registrations then
    [⟨.readwrite, false, place.first⟩]
  else if read ∈ registrations then readBehind place.readable
  else [⟨.readwrite, true, place.first⟩]

theorem run_reads (some : registrations ≠ [])
    (noWrite : ∀ registration ∈ registrations,
      registration.writes = false) :
    run place [] registrations =
      [⟨.read, registrations.all CombinedAccess.weak, place.readable⟩] := by
  cases registrations with
  | nil => exact absurd rfl some
  | cons registration rest =>
      obtain ⟨type, weak⟩ := registration
      cases type with
      | read =>
          exact run_of_reads (fun registration member =>
            noWrite registration (List.mem_cons_of_mem _ member)) _ _
      | write => cases noWrite _ List.mem_cons_self
      | readwrite => cases noWrite _ List.mem_cons_self

theorem essential_run_writes (some : registrations ≠ [])
    (allWrite : ∀ registration ∈ registrations,
      registration.writes = true) :
    (run place [] registrations).map essential =
      [⟨.readwrite, registrations.all CombinedAccess.weak, place.first⟩] := by
  cases registrations with
  | nil => exact absurd rfl some
  | cons registration rest =>
      exact run_of_writes (fun registration member =>
        allWrite registration (List.mem_cons_of_mem _ member))
        (settled_fresh registration)
        (allWrite registration List.mem_cons_self)

theorem essential_run_of_commutes (some : registrations ≠ [])
    (commutes : Commutes place registrations) :
    (run place [] registrations).map essential =
      outcome place registrations := by
  unfold outcome
  split
  · rename_i allWrite
    exact essential_run_writes some allWrite
  · rename_i notAllWrite
    split
    · rename_i noWrite
      rw [run_reads some noWrite]
      rfl
    · rename_i someWrite
      rcases commutes with allWrite | noWrite | ⟨member, kinds⟩ | mixes
      · exact absurd allWrite notAllWrite
      · exact absurd noWrite someWrite
      · rw [if_pos member, run_of_readwrite_mem member]
        · rfl
        · intro before sublist
          rcases kinds with ⟨noRead, noWrite⟩ | ⟨noWrite, noReadwrite⟩
          · exact ⟨_, atMostOne_of_no_strong
              (fun member => noRead (sublist.subset member))
              (fun member => noWrite (sublist.subset member))⟩
          · exact ⟨_, atMostOne_of_no_weak
              (fun member => noWrite (sublist.subset member))
              (fun member => noReadwrite (sublist.subset member))⟩
      · rw [if_neg mixes.noReadwrite]
        apply essential_run_of_mixes mixes
        · simpa only [not_forall, Bool.not_eq_false, exists_prop]
            using someWrite
        · simpa only [not_forall, Bool.not_eq_true, exists_prop]
            using notAllWrite

theorem outcome_perm {order : List CombinedAccess}
    (perm : order.Perm registrations) :
    outcome place order = outcome place registrations := by
  unfold outcome
  simp only [perm.mem_iff, perm.all_eq]

theorem commutes_perm {order : List CombinedAccess}
    (perm : order.Perm registrations)
    (commutes : Commutes place registrations) : Commutes place order := by
  unfold Commutes at commutes ⊢
  simp only [perm.mem_iff]
  refine commutes.imp_right (Or.imp_right (Or.imp_right fun mixes => ?_))
  refine ⟨?_, ?_, ?_, ?_⟩
  · rw [perm.mem_iff]
    exact mixes.noWrite
  · rw [perm.mem_iff]
    exact mixes.noReadwrite
  · rw [perm.count_eq]
    exact mixes.oneRead
  · simp only [perm.mem_iff]
    exact mixes.covered

/-! ### Two orders that differ -/

/-- The objects do not depend on the order. -/
def OrderFree (place : Place) (registrations : List CombinedAccess) : Prop :=
  ∀ order, order.Perm registrations →
    (run place [] order).map essential =
      (run place [] registrations).map essential

theorem OrderFree.eq (free : OrderFree place registrations)
    {first second : List CombinedAccess} (one : first.Perm registrations)
    (other : second.Perm registrations) :
    (run place [] first).map essential =
      (run place [] second).map essential :=
  (free first one).trans (free second other).symm

/-- A property of objects that does not tell a write from a readwrite. -/
theorem exists_of_essential {Property : Object → Prop}
    (kept : ∀ object, Property (essential object) ↔ Property object)
    {objects essentials : List Object}
    (equal : objects.map essential = essentials)
    (holds : ∃ object ∈ essentials, Property object) :
    ∃ object ∈ objects, Property object := by
  obtain ⟨_, member, property⟩ := holds
  rw [← equal] at member
  obtain ⟨object, inObjects, rfl⟩ := List.mem_map.mp member
  exact ⟨object, inObjects, (kept object).mp property⟩

theorem writes_essential (object : Object) :
    object.essential.type.writes = object.type.writes := by
  obtain ⟨type, weak, satisfied⟩ := object
  cases type <;> rfl

def WritesStrongly (object : Object) : Prop :=
  object.type.writes = true ∧ object.weak = false

theorem writesStrongly_essential (object : Object) :
    object.essential.WritesStrongly ↔ object.WritesStrongly := by
  unfold WritesStrongly
  rw [writes_essential]
  rfl

def Writes (object : Object) : Prop :=
  object.type.writes = true

theorem writes_essential_iff (object : Object) :
    object.essential.Writes ↔ object.Writes := by
  unfold Writes
  rw [writes_essential]

theorem exists_of_orderFree (free : OrderFree place registrations)
    {Property : Object → Prop}
    (kept : ∀ object, Property (essential object) ↔ Property object)
    {first second : List CombinedAccess} (one : first.Perm registrations)
    (other : second.Perm registrations)
    (holds : ∃ object ∈ run place [] first, Property object) :
    ∃ object ∈ run place [] second, Property object := by
  obtain ⟨object, member, property⟩ := holds
  exact exists_of_essential kept (free.eq other one)
    ⟨essential object, List.mem_map_of_mem member,
      (kept object).mpr property⟩

theorem exists_perm_cons {registration : CombinedAccess}
    (member : registration ∈ registrations) :
    ∃ rest, (registration :: rest).Perm registrations :=
  ⟨registrations.erase registration,
    (List.perm_cons_erase member).symm⟩

theorem mem_of_perm_cons {registration other : CombinedAccess}
    {rest : List CombinedAccess}
    (perm : (registration :: rest).Perm registrations)
    (member : other ∈ registrations) (differs : other ≠ registration) :
    other ∈ rest :=
  (List.mem_cons.mp (perm.mem_iff.mpr member)).resolve_left differs

theorem exists_perm_cons_cons {first second : CombinedAccess}
    (one : first ∈ registrations) (other : second ∈ registrations)
    (differs : second ≠ first) :
    ∃ rest, (first :: second :: rest).Perm registrations := by
  obtain ⟨rest, perm⟩ := exists_perm_cons one
  obtain ⟨others, inner⟩ :=
    exists_perm_cons (mem_of_perm_cons perm other differs)
  exact ⟨others, (inner.cons first).trans perm⟩

/-- The chosen registrations first. -/
theorem filter_append_perm (chosen : CombinedAccess → Bool) :
    (registrations.filter chosen ++
      registrations.filter fun registration => !chosen registration).Perm
        registrations :=
  List.filter_append_perm chosen registrations

/-- The same registration again and again. -/
theorem run_repeated {registration : CombinedAccess} (some : registrations ≠ [])
    (same : ∀ other ∈ registrations, other = registration) :
    run place [] registrations = [fresh place registration] := by
  cases registrations with
  | nil => exact absurd rfl some
  | cons first rest =>
      rw [same first List.mem_cons_self]
      change run place [fresh place registration] rest = _
      apply run_fixed
      intro other member
      rw [same other (List.mem_cons_of_mem _ member)]
      obtain ⟨type, weak⟩ := registration
      cases flag : (fresh place ⟨type, weak⟩).satisfied <;>
        cases type <;> cases weak <;>
          simp [register, upgrade, fresh, CombinedType.writes, mergeType,
            isReevaluated]

/-- What holds of each object, and of those in place of an upgraded one. -/
theorem forall_register {Property : Object → Prop}
    {registration : CombinedAccess}
    (start : ∀ place, Property (fresh place registration))
    (step : ∀ place object, Property object →
      ∀ new ∈ object.upgrade place registration, Property new)
    {objects : List Object} (all : ∀ object ∈ objects, Property object) :
    ∀ object ∈ register registration place objects, Property object := by
  induction objects generalizing place with
  | nil => exact List.forall_mem_singleton.mpr (start place)
  | cons object rest inductionHypothesis =>
      obtain ⟨here, later⟩ := List.forall_mem_cons.mp all
      cases rest with
      | nil => exact step place object here
      | cons next rest =>
          exact List.forall_mem_cons.mpr ⟨here, inductionHypothesis later⟩

/-- No strong object writes if no strong registration does. -/
theorem weak_of_writes {objects : List Object}
    (weak : ∀ registration ∈ registrations,
      registration.writes = true → registration.weak = true)
    (all : ∀ object ∈ objects,
      object.type.writes = true → object.weak = true) :
    ∀ object ∈ run place objects registrations,
      object.type.writes = true → object.weak = true := by
  apply run_invariant (fun objects => ∀ object ∈ objects,
    object.type.writes = true → object.weak = true) _ all
  intro objects all registration member
  have new := weak registration member
  refine forall_register (fun _ => new) ?_ all
  obtain ⟨newType, newWeak⟩ := registration
  rintro place ⟨type, isWeak, satisfied⟩ old
  unfold upgrade
  split
  · exact List.forall_mem_cons.mpr
      ⟨old, List.forall_mem_singleton.mpr fun _ => rfl⟩
  · split
    · exact List.forall_mem_cons.mpr
        ⟨nofun, List.forall_mem_singleton.mpr fun _ => rfl⟩
    · rw [List.forall_mem_singleton]
      cases type <;> cases newType <;> cases isWeak <;> cases newWeak <;>
        simp_all [CombinedType.writes, writes, mergeType]

/-- A strong write becomes a read. -/
theorem register_read_of_write (weak satisfied : Bool) :
    register ⟨.read, weak⟩ place [⟨.write, false, satisfied⟩] =
      [⟨.read, false, satisfied⟩] := by
  cases weak <;> cases satisfied <;> rfl

/-- A weak write goes behind a strong read. -/
theorem register_weak_of_read {type : CombinedType}
    (isWriting : type.writes = true) (satisfied : Bool) :
    register ⟨type, true⟩ place [⟨.read, false, satisfied⟩] =
      [⟨.read, false, satisfied⟩, ⟨type, true, false⟩] := by
  cases type with
  | read => cases isWriting
  | write => rfl
  | readwrite => rfl

/-- A write that becomes strong with a read before it, and one that becomes a
read. -/
theorem not_orderFree_of_write (noReadwrite : readwrite ∉ registrations)
    (strong : write ∈ registrations) {reading : CombinedAccess}
    (member : reading ∈ registrations) (reads : reading.writes = false) :
    ¬ OrderFree place registrations := by
  obtain ⟨type, weak⟩ := reading
  cases type with
  | write => cases reads
  | readwrite => cases reads
  | read =>
      intro free
      obtain ⟨rest, first⟩ :=
        exists_perm_cons_cons member strong (by simp [write])
      obtain ⟨others, inner⟩ : ∃ others, (⟨.read, weak⟩ :: others).Perm
          (registrations.filter fun registration =>
            !(registration == write)) :=
        exists_perm_cons (List.mem_filter.mpr ⟨member, rfl⟩)
      have second := (inner.append_left _).trans
        (filter_append_perm (· == write))
      have strongRun : run place [] (⟨.read, weak⟩ :: write :: rest) =
          [⟨.readwrite, false, place.readable && place.first⟩] := by
        have upgraded : run place [] (⟨.read, weak⟩ :: write :: rest) =
            run place [⟨.readwrite, false,
              place.readable && place.first⟩] rest := by
          cases weak <;> rfl
        rw [upgraded, run_readwrite]
      have weakRun : ∀ object ∈ run place [] (registrations.filter
          (· == write) ++ ⟨.read, weak⟩ :: others),
          object.type.writes = true → object.weak = true := by
        rw [run_append, run_repeated
          (List.ne_nil_of_mem (List.mem_filter.mpr ⟨strong, rfl⟩))
          fun other inFilter =>
            beq_iff_eq.mp (List.mem_filter.mp inFilter).2]
        rw [run, show fresh place write = ⟨.write, false, place.first⟩
          from rfl, register_read_of_write]
        apply weak_of_writes
        · rintro ⟨type, isWeak⟩ inOthers isWriting
          obtain ⟨inAll, notWrite⟩ := List.mem_filter.mp
            (inner.mem_iff.mp (List.mem_cons_of_mem _ inOthers))
          cases isWeak with
          | true => rfl
          | false =>
              cases type with
              | read => cases isWriting
              | write => cases notWrite
              | readwrite => exact absurd inAll noReadwrite
        · rw [List.forall_mem_singleton]
          intro isWriting
          cases isWriting
      obtain ⟨object, inSecond, isWriting, isStrong⟩ :=
        exists_of_orderFree free writesStrongly_essential first second
          ⟨_, by
            rw [strongRun]
            exact List.mem_singleton_self _, rfl, rfl⟩
      rw [weakRun object inSecond isWriting] at isStrong
      cases isStrong

/-- A readwrite alone, and one behind a strong read. -/
theorem not_orderFree_of_readwrite (member : readwrite ∈ registrations)
    {weakWriting : CombinedAccess} (inAll : weakWriting ∈ registrations)
    (isWeak : weakWriting.weak = true)
    (isWriting : weakWriting.writes = true)
    (strong : read ∈ registrations ∨
      write ∈ registrations ∧ weakRead ∈ registrations) :
    ¬ OrderFree place registrations := by
  intro free
  obtain ⟨rest, first⟩ := exists_perm_cons member
  have one : ((run place [] (readwrite :: rest)).map essential).length =
      1 := by
    change ((run place [⟨.readwrite, false, place.first⟩]
      rest).map essential).length = 1
    rw [run_readwrite]
    rfl
  obtain ⟨type, weak⟩ := weakWriting
  cases isWeak
  obtain ⟨second, perm, two⟩ : ∃ second : List CombinedAccess,
      second.Perm registrations ∧
        2 ≤ (run place [] second).length := by
    rcases strong with strongRead | ⟨strongWrite, inReads⟩
    · obtain ⟨others, perm⟩ := exists_perm_cons_cons strongRead inAll nofun
      refine ⟨_, perm, ?_⟩
      change 2 ≤ (run place (register ⟨type, true⟩ place
        [⟨.read, false, place.readable⟩]) others).length
      rw [register_weak_of_read isWriting]
      exact length_run [_, _] others
    · obtain ⟨others, perm⟩ :=
        exists_perm_cons_cons strongWrite inReads nofun
      have inOthers : ⟨type, true⟩ ∈ others := by
        rcases List.mem_cons.mp (perm.mem_iff.mpr inAll) with
          impossible | later
        · cases impossible
        · rcases List.mem_cons.mp later with impossible | later
          · rw [impossible] at isWriting
            cases isWriting
          · exact later
      obtain ⟨remaining, inner⟩ := exists_perm_cons inOthers
      refine ⟨_, ((inner.cons weakRead).cons write).trans perm, ?_⟩
      change 2 ≤ (run place (register ⟨type, true⟩ place
        (register weakRead place
          [⟨.write, false, place.first⟩])) remaining).length
      rw [register_read_of_write, register_weak_of_read isWriting]
      exact length_run [_, _] remaining
  rw [free.eq first perm, List.length_map] at one
  omega

/-- Two strong reads before the weak writes, and one on each side. -/
theorem not_orderFree_of_reads
    (weak : ∀ registration ∈ registrations, registration ≠ read →
      registration.weak = true)
    (twice : 2 ≤ registrations.count read)
    {weakWriting : CombinedAccess} (inAll : weakWriting ∈ registrations)
    (isWriting : weakWriting.writes = true) :
    ¬ OrderFree place registrations := by
  intro free
  have inReads : read ∈ registrations :=
    List.count_pos_iff.mp (by omega)
  have other : weakWriting ≠ read := by
    rintro rfl
    cases isWriting
  have isWeak := weak weakWriting inAll other
  have first : (registrations.filter (· == read) ++
      registrations.filter fun registration =>
        !(registration == read)).Perm registrations :=
    filter_append_perm (· == read)
  have atMostTwo : (run place [] (registrations.filter (· == read) ++
      registrations.filter fun registration =>
        !(registration == read))).length ≤ 2 := by
    have single : run place [] (registrations.filter (· == read)) =
        [⟨.read, false, place.readable⟩] :=
      run_repeated (List.ne_nil_of_mem (List.mem_filter.mpr ⟨inReads, rfl⟩))
        fun registration inFilter =>
          beq_iff_eq.mp (List.mem_filter.mp inFilter).2
    rw [run_append, single]
    have othersWeak : ∀ registration ∈ registrations.filter
        fun registration => !(registration == read),
        registration.weak = true := by
      intro registration inFilter
      obtain ⟨inAll, differs⟩ := List.mem_filter.mp inFilter
      apply weak registration inAll
      rintro rfl
      cases differs
    have start : Behind place.readable [⟨.read, false, place.readable⟩] :=
      Or.inl rfl
    rcases behind_run othersWeak start with equal | ⟨type, equal⟩
    · rw [equal]
      exact Nat.le_succ _
    · rw [equal]
      exact Nat.le_refl _
  obtain ⟨others, perm⟩ := exists_perm_cons_cons inReads inAll other
  have again : read ∈ others := by
    have count := perm.count_eq read
    rw [List.count_cons_self, List.count_cons_of_ne other] at count
    exact List.count_pos_iff.mp (by omega)
  obtain ⟨remaining, inner⟩ := exists_perm_cons again
  have second := ((inner.cons weakWriting).cons read).trans perm
  have atLeastThree : 3 ≤ (run place []
      (read :: weakWriting :: read :: remaining)).length := by
    obtain ⟨type, newWeak⟩ := weakWriting
    cases isWeak
    change 3 ≤ (run place (register read place (register ⟨type, true⟩ place
      [⟨.read, false, place.readable⟩])) remaining).length
    rw [register_weak_of_read isWriting]
    obtain ⟨satisfied, apart⟩ : ∃ satisfied, register read place
        [⟨.read, false, place.readable⟩, ⟨type, true, false⟩] =
          [⟨.read, false, place.readable⟩, ⟨.read, false, satisfied⟩,
            ⟨type, true, false⟩] := by
      cases type with
      | read => cases isWriting
      | write => exact ⟨_, rfl⟩
      | readwrite => exact ⟨_, rfl⟩
    rw [apart]
    exact length_run [_, _, _] remaining
  have equal := congrArg List.length (free.eq first second)
  rw [List.length_map, List.length_map] at equal
  omega

theorem register_concat (registration : CombinedAccess) (front : List Object)
    (last : Object) (place : Place) :
    ∃ previous, register registration place (front ++ [last]) =
      front ++ last.upgrade previous registration := by
  induction front generalizing place with
  | nil => exact ⟨place, rfl⟩
  | cons object rest inductionHypothesis =>
      obtain ⟨previous, registered⟩ := inductionHypothesis object.behind
      refine ⟨previous, ?_⟩
      rw [List.cons_append, List.cons_append, ← registered]
      cases rest with
      | nil => rfl
      | cons next rest => rfl

/-- A weak readwrite stays the last object, unless it becomes strong. -/
theorem exists_writing_run {satisfied : Bool}
    (weak : ∀ registration ∈ registrations,
      registration.writes = true → registration.weak = true) :
    ∃ object ∈ run place [⟨.readwrite, true, satisfied⟩] registrations,
      object.Writes := by
  obtain ⟨front, flag, equal⟩ : ∃ front flag,
      run place [⟨.readwrite, true, satisfied⟩] registrations =
        front ++ [⟨.readwrite, true, flag⟩] := by
    apply run_invariant (fun objects : List Object => ∃ front flag,
      objects = front ++ [Object.mk .readwrite true flag])
    · rintro _ ⟨front, flag, rfl⟩ ⟨type, isWeak⟩ member
      obtain ⟨previous, registered⟩ := register_concat ⟨type, isWeak⟩ front
        ⟨.readwrite, true, flag⟩ place
      rw [registered]
      cases isWeak with
      | true =>
          refine ⟨front, flag, ?_⟩
          cases type <;> cases flag <;> rfl
      | false =>
          cases type with
          | read =>
              refine ⟨front ++ [⟨.read, false, previous.readable⟩], false, ?_⟩
              rw [List.append_assoc]
              rfl
          | write => cases weak _ member rfl
          | readwrite => cases weak _ member rfl
    · exact ⟨[], satisfied, rfl⟩
  rw [equal]
  exact ⟨_, List.mem_append_right _ (List.mem_singleton_self _), rfl⟩

/-- The weak write becomes a weak read, or the weak read a weak write. -/
theorem not_orderFree_of_weak (noWrite : write ∉ registrations)
    (noReadwrite : readwrite ∉ registrations)
    (noWeakReadwrite : weakReadwrite ∉ registrations)
    (inReads : weakRead ∈ registrations)
    (inWrites : weakWrite ∈ registrations) :
    ¬ OrderFree place registrations := by
  intro free
  obtain ⟨rest, first⟩ := exists_perm_cons_cons inReads inWrites nofun
  obtain ⟨others, inner⟩ : ∃ others, (weakRead :: others).Perm
      (registrations.filter fun registration =>
        !(registration == weakWrite)) :=
    exists_perm_cons (List.mem_filter.mpr ⟨inReads, rfl⟩)
  have second := (inner.append_left _).trans
    (filter_append_perm (· == weakWrite))
  have reads : run place [] (registrations.filter (· == weakWrite) ++
      weakRead :: others) =
        [⟨.read, others.all CombinedAccess.weak, place.first⟩] := by
    have single : run place [] (registrations.filter (· == weakWrite)) =
        [⟨.write, true, place.first⟩] :=
      run_repeated (List.ne_nil_of_mem (List.mem_filter.mpr ⟨inWrites, rfl⟩))
        fun registration inFilter =>
          beq_iff_eq.mp (List.mem_filter.mp inFilter).2
    have becomes : register weakRead place [⟨.write, true, place.first⟩] =
        [⟨.read, true, place.first⟩] := by
      cases place.first <;> rfl
    rw [run_append, single, run, becomes, run_of_reads]
    · rfl
    · rintro ⟨type, isWeak⟩ inOthers
      obtain ⟨inAll, differs⟩ := List.mem_filter.mp
        (inner.mem_iff.mp (List.mem_cons_of_mem _ inOthers))
      cases type with
      | read => rfl
      | write =>
          cases isWeak with
          | true => cases differs
          | false => exact absurd inAll noWrite
      | readwrite =>
          cases isWeak with
          | true => exact absurd inAll noWeakReadwrite
          | false => exact absurd inAll noReadwrite
  have writing : ∃ object ∈ run place [] (weakRead :: weakWrite :: rest),
      object.Writes := by
    change ∃ object ∈ run place (register weakWrite place
      [⟨.read, true, place.readable⟩]) rest, object.Writes
    have becomes : register weakWrite place
        [⟨.read, true, place.readable⟩] =
          [⟨.readwrite, true, place.readable && place.first⟩] := by
      rfl
    rw [becomes]
    apply exists_writing_run
    rintro ⟨type, isWeak⟩ inRest isWriting
    have inAll := first.mem_iff.mp
      (List.mem_cons_of_mem _ (List.mem_cons_of_mem _ inRest))
    cases isWeak with
    | true => rfl
    | false =>
        cases type with
        | read => cases isWriting
        | write => exact absurd inAll noWrite
        | readwrite => exact absurd inAll noReadwrite
  obtain ⟨object, inReads, isWriting⟩ :=
    exists_of_orderFree free writes_essential_iff first second writing
  rw [reads] at inReads
  rw [List.mem_singleton.mp inReads] at isWriting
  cases isWriting

/-- The strong read is satisfied, unless it was a write before. -/
theorem not_orderFree_of_satisfied
    (weak : ∀ registration ∈ registrations, registration ≠ read →
      registration.weak = true)
    (once : registrations.count read ≤ 1) (strong : read ∈ registrations)
    (inReads : weakRead ∈ registrations)
    (inWrites : weakWrite ∈ registrations)
    (differs : place.readable ≠ place.first) :
    ¬ OrderFree place registrations := by
  intro free
  have allWeak : ∀ {chosen rest : List CombinedAccess},
      (chosen ++ rest).Perm registrations → read ∈ chosen →
        ∀ registration ∈ rest, registration.weak = true := by
    intro chosen rest perm inChosen registration inRest
    apply weak registration (perm.mem_iff.mp (List.mem_append_right _ inRest))
    rintro rfl
    have count := perm.count_eq read
    rw [List.count_append] at count
    have one := List.count_pos_iff.mpr inChosen
    have other := List.count_pos_iff.mpr inRest
    omega
  have head : ∀ {satisfied : Bool} {objects : List Object},
      Behind satisfied objects →
        (objects.map essential).head? = some ⟨.read, false, satisfied⟩ := by
    rintro satisfied _ (rfl | ⟨type, rfl⟩) <;> rfl
  obtain ⟨rest, first⟩ : ∃ rest, ([read] ++ rest).Perm registrations :=
    exists_perm_cons strong
  have readFirst : Behind place.readable
      (run place (run place [] [read]) rest) :=
    behind_run (allWeak first List.mem_cons_self) (Or.inl rfl)
  obtain ⟨others, perm⟩ := exists_perm_cons_cons inWrites inReads nofun
  have again : read ∈ others := by
    rcases List.mem_cons.mp (perm.mem_iff.mpr strong) with
      impossible | later
    · cases impossible
    · rcases List.mem_cons.mp later with impossible | later
      · cases impossible
      · exact later
  obtain ⟨remaining, inner⟩ := exists_perm_cons again
  have second : ([weakWrite, weakRead, read] ++ remaining).Perm
      registrations := ((inner.cons weakRead).cons weakWrite).trans perm
  have writeFirst : Behind place.first
      (run place [] [weakWrite, weakRead, read]) := by
    left
    change register read place (register weakRead place
      [⟨.write, true, place.first⟩]) = _
    cases place.first <;> rfl
  have readLast : Behind place.first
      (run place (run place [] [weakWrite, weakRead, read]) remaining) :=
    behind_run (allWeak second (by decide)) writeFirst
  have equal := free.eq first second
  rw [run_append, run_append] at equal
  have equal := (head readFirst).symm.trans (equal ▸ head readLast)
  exact differs (congrArg Object.satisfied (Option.some.inj equal))

/-- The objects are the same in any order exactly when the registrations
commute. -/
theorem orderFree_iff : OrderFree place registrations ↔
    Commutes place registrations := by
  constructor
  · intro free
    by_contra conflict
    unfold Commutes at conflict
    rw [not_or, not_or, not_or] at conflict
    obtain ⟨notAllWrite, someWrite, notStrong, notMixed⟩ := conflict
    obtain ⟨reading, inReads, reads⟩ : ∃ reading ∈ registrations,
        reading.writes = false := by
      simpa only [not_forall, Bool.not_eq_true, exists_prop]
        using notAllWrite
    obtain ⟨writing, inWrites, isWriting⟩ : ∃ writing ∈ registrations,
        writing.writes = true := by
      simpa only [not_forall, Bool.not_eq_false, exists_prop]
        using someWrite
    by_cases hasReadwrite : readwrite ∈ registrations
    · rw [not_and, not_or, not_and_or, not_and_or, not_not, not_not,
        not_not, not_not] at notStrong
      obtain ⟨strong, weakWriting⟩ := notStrong hasReadwrite
      have reader : read ∈ registrations ∨
          write ∈ registrations ∧ weakRead ∈ registrations := by
        obtain ⟨type, weak⟩ := reading
        rcases strong with strongRead | strongWrite
        · exact Or.inl strongRead
        · cases type with
          | read =>
              cases weak with
              | true => exact Or.inr ⟨strongWrite, inReads⟩
              | false => exact Or.inl inReads
          | write => cases reads
          | readwrite => cases reads
      rcases weakWriting with inWeak | inWeak
      · exact not_orderFree_of_readwrite hasReadwrite inWeak rfl rfl reader
          free
      · exact not_orderFree_of_readwrite hasReadwrite inWeak rfl rfl reader
          free
    · by_cases hasWrite : write ∈ registrations
      · exact not_orderFree_of_write hasReadwrite hasWrite inReads reads free
      · have weak : ∀ registration ∈ registrations, registration ≠ read →
            registration.weak = true := by
          rintro ⟨type, weak⟩ member other
          cases weak with
          | true => rfl
          | false =>
              cases type with
              | read => exact absurd rfl other
              | write => exact absurd member hasWrite
              | readwrite => exact absurd member hasReadwrite
        by_cases once : registrations.count read ≤ 1
        · apply notMixed
          refine ⟨hasWrite, hasReadwrite, once, ?_⟩
          by_contra uncovered
          rw [not_or, not_not, not_and] at uncovered
          obtain ⟨inWeakReads, uncovered⟩ := uncovered
          by_cases covered : weakReadwrite ∈ registrations
          · have rest := uncovered covered
            rw [not_or, not_or, not_not, not_not] at rest
            exact not_orderFree_of_satisfied weak once rest.1 inWeakReads
              rest.2.1 rest.2.2 free
          · refine not_orderFree_of_weak hasWrite hasReadwrite covered
              inWeakReads ?_ free
            have isWeak := weak writing inWrites (by
              rintro rfl
              cases isWriting)
            obtain ⟨type, newWeak⟩ := writing
            cases isWeak
            cases type with
            | read => cases isWriting
            | write => exact inWrites
            | readwrite => exact absurd inWrites covered
        · exact not_orderFree_of_reads weak (by omega) inWrites isWriting free
  · intro commutes order perm
    rcases eq_or_ne registrations [] with rfl | some
    · rw [perm.eq_nil]
    · have nonempty : order ≠ [] := by
        rintro rfl
        exact some perm.symm.eq_nil
      rw [essential_run_of_commutes nonempty (commutes_perm perm commutes),
        essential_run_of_commutes some commutes, outcome_perm perm]

/-! ### Nothing is lost -/

theorem exists_mem_run (place : Place) {registration : CombinedAccess}
    (member : registration ∈ registrations) :
    ∃ object, object ∈ run place [] registrations := by
  cases registrations with
  | nil => cases member
  | cons first rest =>
      have one : 1 ≤ (run place [fresh place first] rest).length :=
        length_run [_] rest
      exact List.exists_mem_of_length_pos one

/-- Registrations that commute leave a writing object if one of them writes. -/
theorem exists_writes_of_commutes (commutes : Commutes place registrations)
    {registration : CombinedAccess} (member : registration ∈ registrations)
    (isWriting : registration.writes = true) :
    ∃ object ∈ run place [] registrations, object.Writes := by
  apply exists_of_essential writes_essential_iff
    (essential_run_of_commutes (List.ne_nil_of_mem member) commutes)
  unfold outcome
  split
  · exact ⟨_, List.mem_singleton_self _, rfl⟩
  · split
    · rename_i noWrite
      rw [noWrite registration member] at isWriting
      cases isWriting
    · split
      · exact ⟨_, List.mem_singleton_self _, rfl⟩
      · split
        · exact ⟨_, List.mem_cons_of_mem _ (List.mem_singleton_self _), rfl⟩
        · exact ⟨_, List.mem_singleton_self _, rfl⟩

/-- They leave a strong writing object if one of them is strong and writes. -/
theorem exists_writesStrongly_of_commutes
    (commutes : Commutes place registrations)
    {registration : CombinedAccess} (member : registration ∈ registrations)
    (isWriting : registration.writes = true)
    (strong : registration.weak = false) :
    ∃ object ∈ run place [] registrations, object.WritesStrongly := by
  apply exists_of_essential writesStrongly_essential
    (essential_run_of_commutes (List.ne_nil_of_mem member) commutes)
  unfold outcome
  split
  · refine ⟨_, List.mem_singleton_self _, rfl, ?_⟩
    exact List.all_eq_false.mpr ⟨registration, member, by
      rw [strong]
      exact Bool.false_ne_true⟩
  · rename_i notAllWrite
    split
    · rename_i noWrite
      rw [noWrite registration member] at isWriting
      cases isWriting
    · rename_i someWrite
      split
      · exact ⟨_, List.mem_singleton_self _, rfl, rfl⟩
      · rename_i noReadwrite
        rcases commutes with allWrite | noWrite | ⟨impossible, -⟩ | mixes
        · exact absurd allWrite notAllWrite
        · exact absurd noWrite someWrite
        · exact absurd impossible noReadwrite
        · obtain ⟨type, weak⟩ := registration
          cases strong
          cases type with
          | read => cases isWriting
          | write => exact absurd member mixes.noWrite
          | readwrite => exact absurd member noReadwrite

/-! ### Registrations that fail -/

theorem dereferencesNull_eq_true_iff {registration : CombinedAccess}
    {objects : List Object} :
    dereferencesNull registration place objects = true ↔
      registration = read ∧ place.first = true ∧
        ∃ object, objects = [object] ∧ object.type.writes = true ∧
          object.weak = true := by
  obtain ⟨type, weak⟩ := registration
  rcases objects with _ | ⟨object, _ | ⟨next, rest⟩⟩
  · simp [dereferencesNull]
  · cases type <;> cases weak <;>
      simp [dereferencesNull, CombinedType.writes, and_assoc]
  · simp [dereferencesNull]

/-- The first registration that fails. -/
theorem exists_of_runFails {objects : List Object}
    (fails : runFails place objects registrations = true) :
    ∃ before registration after,
      registrations = before ++ registration :: after ∧
        dereferencesNull registration place (run place objects before) =
          true := by
  induction registrations generalizing objects with
  | nil => cases fails
  | cons first rest inductionHypothesis =>
      rw [runFails, Bool.or_eq_true] at fails
      rcases fails with here | later
      · exact ⟨[], first, rest, rfl, here⟩
      · obtain ⟨before, registration, after, rfl, found⟩ :=
          inductionHypothesis later
        exact ⟨first :: before, registration, after, rfl, found⟩

end Object

/-- There is no strong read, or no weak write that it could come to. -/
def NeedsNoPrevious (registrations : List CombinedAccess) : Prop :=
  read ∉ registrations ∨
    weakWrite ∉ registrations ∧ weakReadwrite ∉ registrations

namespace Object

variable {place : Place} {registrations : List CombinedAccess}

theorem runFails_eq_false
    (safe : place.first = true → NeedsNoPrevious registrations) :
    runFails place [] registrations = false := by
  rw [Bool.eq_false_iff]
  intro fails
  obtain ⟨before, registration, after, rfl, found⟩ := exists_of_runFails fails
  obtain ⟨rfl, first, object, objects, isWriting, isWeak⟩ :=
    dereferencesNull_eq_true_iff.mp found
  rcases safe first with noRead | ⟨noWrite, noReadwrite⟩
  · exact noRead (List.mem_append_right _ List.mem_cons_self)
  · have one : AtMostOne place
        (fun object => object.type.writes = true → object.weak = false)
        (run place [] before) :=
      atMostOne_of_no_weak
        (fun member => noWrite (List.mem_append_left _ member))
        (fun member => noReadwrite (List.mem_append_left _ member))
    rw [objects] at one
    rcases one with none | ⟨other, single, -, strong⟩
    · cases none
    · cases single
      rw [strong isWriting] at isWeak
      cases isWeak

/-- A weak write and then a strong read. -/
theorem runFails_of_weak {type : CombinedType} (isWriting : type.writes = true)
    (first : place.first = true) (rest : List CombinedAccess) :
    runFails place [] (⟨type, true⟩ :: read :: rest) = true := by
  cases type with
  | read => cases isWriting
  | write =>
      simp [runFails, dereferencesNull, register, first, CombinedType.writes]
  | readwrite =>
      simp [runFails, dereferencesNull, register, first, CombinedType.writes]

/-- If no order fails. -/
theorem needsNoPrevious_of_orders (first : place.first = true)
    (goes : ∀ order, order.Perm registrations →
      runFails place [] order = false) :
    NeedsNoPrevious registrations := by
  have absent : ∀ type : CombinedType, type.writes = true →
      read ∈ registrations → ⟨type, true⟩ ∉ registrations := by
    intro type isWriting inReads member
    have differs : read ≠ ⟨type, true⟩ := nofun
    obtain ⟨rest, perm⟩ := exists_perm_cons_cons member inReads differs
    have fails := runFails_of_weak isWriting first rest
    rw [goes _ perm] at fails
    cases fails
  by_cases inReads : read ∈ registrations
  · exact Or.inr ⟨absent .write rfl inReads, absent .readwrite rfl inReads⟩
  · exact Or.inl inReads

end Object

/-! ### The accesses of the task -/

/-- A satisfied access of the type keeps a later one from being satisfied. -/
def Conflicts (type later : DataAccessType) : Prop :=
  evaluateSatisfiability (some ⟨0, type, false, true⟩) later = false

/-- An access up to the difference between a write and a readwrite. -/
def DataAccess.essential (access : DataAccess) : DataAccess :=
  { access with
    type := if access.type = .write then .readwrite else access.type }

/-- The accesses that a task registers keep every conflict and every strong
write of the registrations, and do not depend on their order. -/
def NeverWeakens (task : Nat) (effectivePrevious : Option DataAccess)
    (sequence : DataAccessSequence) (registrations : List CombinedAccess) :
    Prop :=
  ∃ result,
    sequence.registerAll task effectivePrevious registrations =
      some result ∧
    (∀ later,
      (∃ registration ∈ registrations,
        Conflicts registration.type.toDataAccessType later) →
      ∃ access ∈ result.accessesOf task, Conflicts access.type later) ∧
    ((∃ registration ∈ registrations,
        registration.writes = true ∧ registration.weak = false) →
      ∃ access ∈ result.accessesOf task,
        access.type ≠ .read ∧ access.weak = false) ∧
    ∀ order, order.Perm registrations →
      ∃ other,
        sequence.registerAll task effectivePrevious order = some other ∧
        (other.accessesOf task).map DataAccess.essential =
          (result.accessesOf task).map DataAccess.essential

theorem conflicts_toDataAccessType (type : CombinedType)
    (later : DataAccessType) :
    Conflicts type.toDataAccessType later ↔
      type.writes = true ∨ later ≠ .read := by
  cases type <;> cases later <;>
    simp [Conflicts, evaluateSatisfiability, CombinedType.writes,
      CombinedType.toDataAccessType]

theorem essential_toDataAccess (task : Nat) (object : Object) :
    (object.toDataAccess task).essential =
      object.essential.toDataAccess task := by
  obtain ⟨type, weak, satisfied⟩ := object
  cases type <;> rfl

theorem toDataAccess_injective (task : Nat) (object other : Object)
    (equal : object.toDataAccess task = other.toDataAccess task) :
    object = other := by
  obtain ⟨type, weak, satisfied⟩ := object
  obtain ⟨otherType, otherWeak, otherSatisfied⟩ := other
  cases type <;> cases otherType <;> cases equal <;> rfl

/-- The accesses agree exactly when the objects do. -/
theorem essential_map_iff (task : Nat) (first second : List Object) :
    (first.map (Object.toDataAccess task)).map DataAccess.essential =
        (second.map (Object.toDataAccess task)).map DataAccess.essential ↔
      first.map Object.essential = second.map Object.essential := by
  have moved : ∀ objects : List Object,
      (objects.map (Object.toDataAccess task)).map DataAccess.essential =
        (objects.map Object.essential).map (Object.toDataAccess task) := by
    intro objects
    rw [List.map_map, List.map_map]
    exact List.map_congr_left fun object _ =>
      essential_toDataAccess task object
  rw [moved, moved]
  exact List.map_inj_right (toDataAccess_injective task)

namespace DataAccessSequence

variable {task : Nat} {effectivePrevious : Option DataAccess}
  {sequence : DataAccessSequence} {registrations : List CombinedAccess}

theorem registerAll_goes (absent : sequence.accessesOf task = [])
    {result : DataAccessSequence}
    (registered : sequence.registerAll task effectivePrevious
      registrations = some result) :
    Object.runFails (Place.ofPrevious (sequence.last effectivePrevious)) []
        registrations = false ∧
      result.accessesOf task =
        (Object.run (Place.ofPrevious (sequence.last effectivePrevious)) []
          registrations).map (Object.toDataAccess task) := by
  have equal := registerAll_eq absent effectivePrevious registrations
  rw [registered, Option.map_some] at equal
  split at equal
  · cases equal
  · rename_i goes
    exact ⟨Bool.eq_false_iff.mpr goes, Option.some.inj equal⟩

theorem exists_registerAll (absent : sequence.accessesOf task = [])
    (goes : Object.runFails
      (Place.ofPrevious (sequence.last effectivePrevious)) []
        registrations = false) :
    ∃ result,
      sequence.registerAll task effectivePrevious registrations =
        some result ∧
      result.accessesOf task =
        (Object.run (Place.ofPrevious (sequence.last effectivePrevious)) []
          registrations).map (Object.toDataAccess task) := by
  have equal := registerAll_eq absent effectivePrevious registrations
  rw [goes, if_neg Bool.false_ne_true] at equal
  exact Option.map_eq_some_iff.mp equal

end DataAccessSequence

theorem NeedsNoPrevious.perm {registrations order : List CombinedAccess}
    (needsNone : NeedsNoPrevious registrations)
    (perm : order.Perm registrations) : NeedsNoPrevious order := by
  unfold NeedsNoPrevious
  simp only [perm.mem_iff]
  exact needsNone

/-- The upgrades keep what the registrations ask for exactly when these commute
and, without an access before them, no strong read comes to a weak write. -/
theorem neverWeakens_iff {task : Nat}
    {effectivePrevious : Option DataAccess} {sequence : DataAccessSequence}
    (absent : sequence.accessesOf task = [])
    (registrations : List CombinedAccess) :
    NeverWeakens task effectivePrevious sequence registrations ↔
      Commutes (Place.ofPrevious (sequence.last effectivePrevious))
        registrations ∧
      (sequence.last effectivePrevious = none →
        NeedsNoPrevious registrations) := by
  have isFirst : sequence.last effectivePrevious = none ↔
      (Place.ofPrevious (sequence.last effectivePrevious)).first = true :=
    Option.isNone_iff_eq_none.symm
  rw [isFirst]
  constructor
  · rintro ⟨result, registered, -, -, orders⟩
    obtain ⟨-, objects⟩ :=
      DataAccessSequence.registerAll_goes absent registered
    constructor
    · rw [← Object.orderFree_iff]
      intro order perm
      obtain ⟨other, registeredOther, equal⟩ := orders order perm
      obtain ⟨-, others⟩ :=
        DataAccessSequence.registerAll_goes absent registeredOther
      rw [objects, others, essential_map_iff] at equal
      exact equal
    · intro first
      apply Object.needsNoPrevious_of_orders first
      intro order perm
      obtain ⟨other, registeredOther, -⟩ := orders order perm
      exact (DataAccessSequence.registerAll_goes absent registeredOther).1
  · rintro ⟨commutes, safe⟩
    obtain ⟨result, registered, objects⟩ :=
      DataAccessSequence.exists_registerAll absent
        (Object.runFails_eq_false safe)
    refine ⟨result, registered, ?_, ?_, ?_⟩
    · rintro later ⟨registration, member, conflicts⟩
      rw [objects]
      rw [conflicts_toDataAccessType] at conflicts
      rcases conflicts with isWriting | notRead
      · obtain ⟨object, inRun, isWriting⟩ :=
          Object.exists_writes_of_commutes commutes member isWriting
        exact ⟨_, List.mem_map_of_mem inRun,
          (conflicts_toDataAccessType _ later).mpr (Or.inl isWriting)⟩
      · obtain ⟨object, inRun⟩ := Object.exists_mem_run
          (Place.ofPrevious (sequence.last effectivePrevious)) member
        exact ⟨_, List.mem_map_of_mem inRun,
          (conflicts_toDataAccessType _ later).mpr (Or.inr notRead)⟩
    · rintro ⟨registration, member, isWriting, strong⟩
      obtain ⟨object, inRun, isWriting, strong⟩ :=
        Object.exists_writesStrongly_of_commutes commutes member isWriting
          strong
      rw [objects]
      refine ⟨_, List.mem_map_of_mem inRun, ?_, strong⟩
      unfold Object.toDataAccess
      intro reads
      cases type : object.type with
      | read =>
          rw [type] at isWriting
          cases isWriting
      | write =>
          rw [type] at reads
          cases reads
      | readwrite =>
          rw [type] at reads
          cases reads
    · intro order perm
      obtain ⟨other, registeredOther, others⟩ :=
        DataAccessSequence.exists_registerAll absent
          (Object.runFails_eq_false fun first => (safe first).perm perm)
      refine ⟨other, registeredOther, ?_⟩
      rw [objects, others, essential_map_iff]
      exact Object.orderFree_iff.mpr commutes order perm

/-- A write of another task. -/
def oneWrite : DataAccessSequence :=
  .cons ⟨0, .write, false, true⟩ .nil .nil

/-- A weak readwrite and a strong read after the write. -/
theorem neverWeakens_readwrite :
    NeverWeakens 1 none oneWrite [weakReadwrite, read] :=
  (neverWeakens_iff (by decide) _).mpr ⟨Or.inr (Or.inr (Or.inr
    ⟨by decide, by decide, by decide, Or.inl (by decide)⟩)), nofun⟩

/-- A write and a read: only the read is left, and a later read of another task
does not wait. -/
theorem neverWeakens_fails :
    ¬ NeverWeakens 1 none .nil [write, read] := by
  rintro ⟨result, registered, conflicts, -⟩
  cases registered
  obtain ⟨access, member, conflict⟩ :=
    conflicts .read ⟨write, List.mem_cons_self, rfl⟩
  rw [List.mem_singleton.mp member] at conflict
  cases conflict

end Nanos6.Discrete
