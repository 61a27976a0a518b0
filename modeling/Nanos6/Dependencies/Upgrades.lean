import Nanos6.Dependencies.Registration
import Nanos6.Foundation.IntervalFill

/-!
# The accesses of a task with overlapping declarations

A byte that several declarations of a task cover has the type that these have in
common or else is read and written, and its access is weak if all of them are.
Reductions may only overlap reductions of the same type and operator.  All this does
not depend on the order of the declarations.
-/

namespace Nanos6

open Foundation

/-- The two declarations may not cover the same byte. -/
def AccessDeclaration.Conflicts (first second : AccessDeclaration) : Prop :=
  ¬ (first.type = .reduction ↔ second.type = .reduction) ∨
    first.type = .reduction ∧ second.type = .reduction ∧
      first.reductionTypeAndOperatorIndex ≠
        second.reductionTypeAndOperatorIndex

/-- Some declarations that cover the same byte conflict. -/
def HaveConflict (declarations : List AccessDeclaration) : Prop :=
  ∃ first ∈ declarations, ∃ second ∈ declarations,
    (∃ address, address ∈ first.region ∧ address ∈ second.region) ∧
      first.Conflicts second

/-- The access is what the declarations that cover one of its bytes come to. -/
structure DataAccess.IsUpgradeOf (access : DataAccess)
    (covering : List AccessDeclaration) : Prop where
  type : ∀ type, (∀ declaration ∈ covering, declaration.type = type) →
    access.type = type
  readwrite : ∀ first ∈ covering, ∀ second ∈ covering,
    first.type ≠ second.type → access.type = .readwrite
  weak : access.weak = true ↔
    ∀ declaration ∈ covering, declaration.weak = true

/-- The declarations that cover a byte. -/
def covering (declarations : List AccessDeclaration) (address : Nat) :
    List AccessDeclaration :=
  declarations.filter fun declaration => decide (address ∈ declaration.region)

structure IsUpgrade (declarations : List AccessDeclaration)
    (accesses : IntervalMap DataAccess) : Prop where
  nonempty : ∀ piece ∈ accesses.pieces, piece.interval.Nonempty
  disjoint : accesses.pieces.Pairwise fun first second =>
    ¬ first.interval.Meets second.interval
  covered : ∀ address, (∃ piece ∈ accesses.pieces,
    address ∈ piece.interval) ↔
      ∃ declaration ∈ declarations, address ∈ declaration.region
  upgraded : ∀ piece ∈ accesses.pieces, ∀ address ∈ piece.interval,
    piece.value.IsUpgradeOf (covering declarations address)

/-! ## One declaration -/

/-- The access after the declarations that cover a byte so far. -/
structure DataAccess.Describes (access : DataAccess)
    (covering : List AccessDeclaration) : Prop where
  covers : covering ≠ []
  type : (∀ declaration ∈ covering, declaration.type = access.type) ∨
    access.type = .readwrite ∧
      (∃ first ∈ covering, ∃ second ∈ covering,
        first.type ≠ second.type) ∧
      ∀ declaration ∈ covering, declaration.type ≠ .reduction
  weak : access.weak = true ↔
    ∀ declaration ∈ covering, declaration.weak = true
  index : access.type = .reduction → ∀ declaration ∈ covering,
    declaration.reductionTypeAndOperatorIndex =
      access.reductionTypeAndOperatorIndex

namespace DataAccess.Describes

variable {access : DataAccess} {covering : List AccessDeclaration}

theorem isUpgradeOf (known : access.Describes covering) :
    access.IsUpgradeOf covering := by
  refine ⟨?_, ?_, known.weak⟩
  · intro type same
    rcases known.type with all | ⟨-, ⟨first, isFirst, second, isSecond,
      differ⟩, -⟩
    · obtain ⟨declaration, rest, equality⟩ :=
        List.exists_cons_of_ne_nil known.covers
      have member : declaration ∈ covering := by
        rw [equality]
        exact List.mem_cons_self
      rw [← all declaration member]
      exact same declaration member
    · exact absurd ((same first isFirst).trans (same second isSecond).symm)
        differ
  · intro first isFirst second isSecond differ
    rcases known.type with all | ⟨isReadwrite, -⟩
    · exact absurd ((all first isFirst).trans (all second isSecond).symm)
        differ
    · exact isReadwrite

/-- The first declaration of a byte creates the access. -/
theorem created (task : TaskId) (declaration : AccessDeclaration)
    (symbols : Finset (Fin maxSymbols)) :
    { createAccess task .access declaration.type declaration.weak
        declaration.reductionTypeAndOperatorIndex with
      symbols := symbols }.Describes [declaration] where
  covers := List.cons_ne_nil _ _
  type := Or.inl fun other member => by
    rw [List.mem_singleton.mp member]
    rfl
  weak := by simp [createAccess]
  index := fun _ other member => by
    rw [List.mem_singleton.mp member]
    rfl

/-- The access is a reduction if one of the declarations is. -/
theorem reduction_iff (known : access.Describes covering)
    {declaration : AccessDeclaration} (member : declaration ∈ covering) :
    access.type = .reduction ↔ declaration.type = .reduction := by
  rcases known.type with all | ⟨isReadwrite, -, plain⟩
  · rw [all declaration member]
  · constructor
    · intro isReduction
      rw [isReadwrite] at isReduction
      cases isReduction
    · intro isReduction
      exact absurd isReduction (plain declaration member)

/-- The upgrade is refused exactly if the declarations conflict. -/
theorem upgradeAccess_eq_none (known : access.Describes covering)
    (declaration : AccessDeclaration) {other : AccessDeclaration}
    (member : other ∈ covering) :
    upgradeAccess access declaration = none ↔
      other.Conflicts declaration := by
  have same := known.reduction_iff member
  unfold upgradeAccess AccessDeclaration.Conflicts
  rw [← same]
  simp only [bne_iff_ne, Bool.or_eq_true, beq_iff_eq, Bool.and_eq_true]
  by_cases typed : declaration.type = access.type
  · rw [if_neg (not_not_intro typed), typed]
    by_cases isReduction : access.type = .reduction
    · rw [known.index isReduction other member]
      by_cases index : access.reductionTypeAndOperatorIndex =
          declaration.reductionTypeAndOperatorIndex
      · simp [index]
      · simp [index, isReduction]
    · simp [isReduction]
  · rw [if_pos typed]
    by_cases isReduction : access.type = .reduction
    · have plain : declaration.type ≠ .reduction := by
        rw [← isReduction]
        exact typed
      simp [isReduction, plain]
    · by_cases also : declaration.type = .reduction
      · simp [isReduction, also]
      · simp [isReduction, also]

theorem upgrade (known : access.Describes covering)
    {declaration : AccessDeclaration} {changed : DataAccess}
    (upgraded : upgradeAccess access declaration = some changed)
    (symbols : Finset (Fin maxSymbols)) :
    { changed with symbols := symbols }.Describes
      (covering ++ [declaration]) := by
  have weak : (access.weak && declaration.weak) = true ↔
      ∀ other ∈ covering ++ [declaration], other.weak = true := by
    simp only [Bool.and_eq_true, known.weak, List.mem_append,
      List.mem_singleton, or_imp, forall_and, forall_eq]
  obtain ⟨first, rest, equality⟩ := List.exists_cons_of_ne_nil known.covers
  have isFirst : first ∈ covering := by
    rw [equality]
    exact List.mem_cons_self
  have accepted : ¬ first.Conflicts declaration := by
    rw [← known.upgradeAccess_eq_none declaration isFirst, upgraded]
    exact Option.some_ne_none _
  simp only [AccessDeclaration.Conflicts, not_or, not_not] at accepted
  have covers : covering ++ [declaration] ≠ [] := by simp
  unfold upgradeAccess at upgraded
  simp only [bne_iff_ne] at upgraded
  split at upgraded
  · rename_i differ
    split at upgraded
    · cases upgraded
    · rename_i plain
      simp only [Bool.or_eq_true, beq_iff_eq, not_or] at plain
      cases upgraded
      refine ⟨covers, Or.inr ⟨rfl, ?_, ?_⟩, weak, fun not => nomatch not⟩
      · rcases known.type with all | ⟨-, ⟨left, isLeft, right, isRight,
          apart⟩, -⟩
        · refine ⟨first, List.mem_append_left _ isFirst, declaration,
            List.mem_append_right _ (List.mem_singleton.mpr rfl), ?_⟩
          rw [all first isFirst]
          exact Ne.symm differ
        · exact ⟨left, List.mem_append_left _ isLeft, right,
            List.mem_append_left _ isRight, apart⟩
      · intro other member
        rcases List.mem_append.mp member with old | new
        · rw [Ne, ← known.reduction_iff old]
          exact plain.2
        · rw [List.mem_singleton.mp new]
          exact plain.1
  · rename_i same
    have typed : declaration.type = access.type := not_not.mp same
    split at upgraded
    · cases upgraded
    · cases upgraded
      refine ⟨covers, ?_, weak, ?_⟩
      · rcases known.type with all | ⟨isReadwrite, ⟨left, isLeft, right,
          isRight, apart⟩, plain⟩
        · left
          intro other member
          rcases List.mem_append.mp member with old | new
          · exact (all other old).trans typed.symm
          · rw [List.mem_singleton.mp new]
        · right
          refine ⟨typed.trans isReadwrite, ⟨left,
            List.mem_append_left _ isLeft, right,
            List.mem_append_left _ isRight, apart⟩, ?_⟩
          intro other member
          rcases List.mem_append.mp member with old | new
          · exact plain other old
          · rw [List.mem_singleton.mp new, typed, isReadwrite]
            decide
      · intro isReduction other member
        have before : access.type = .reduction := typed.symm.trans isReduction
        rcases List.mem_append.mp member with old | new
        · exact known.index before other old
        · rw [List.mem_singleton.mp new, ← known.index before first isFirst]
          have firstReduction := (known.reduction_iff isFirst).mp before
          by_contra differ
          exact accepted.2 ⟨firstReduction, isReduction, Ne.symm differ⟩

end DataAccess.Describes

/-! ## All declarations -/

/-- The accesses after the declarations that have been registered so far. -/
def Describe (accesses : IntervalMap DataAccess)
    (declarations : List AccessDeclaration) : Prop :=
  ∀ address, match accesses.lookup address with
    | none => covering declarations address = []
    | some access => access.Describes (covering declarations address)

theorem covering_append (declarations : List AccessDeclaration)
    (declaration : AccessDeclaration) (address : Nat) :
    covering (declarations ++ [declaration]) address =
      covering declarations address ++
        if address ∈ declaration.region then [declaration] else [] := by
  unfold covering
  rw [List.filter_append, List.filter_singleton]
  by_cases inside : address ∈ declaration.region <;> simp [inside]

/-- What a byte reads after a declaration. -/
theorem lookup_registerTaskDataAccess {task : TaskId}
    {accesses result : IntervalMap DataAccess}
    {declaration : AccessDeclaration}
    (positive : declaration.region.Nonempty)
    (registered : registerTaskDataAccess task accesses declaration =
      some result) (address : Nat) :
    upgradable accesses declaration = true ∧
      result.lookup address =
        if address ∈ declaration.region then
          some (match accesses.lookup address with
            | some access =>
                let changed := (upgradeAccess access declaration).getD access
                { changed with
                  symbols :=
                    changed.symbols ∪ declaredSymbols accesses declaration }
            | none =>
                { createAccess task .access declaration.type
                    declaration.weak
                    declaration.reductionTypeAndOperatorIndex with
                  symbols := declaredSymbols accesses declaration })
        else accesses.lookup address := by
  unfold registerTaskDataAccess at registered
  rw [decide_eq_true positive, Bool.not_true, if_neg (by simp)] at registered
  split at registered
  · rename_i accepted
    cases registered
    refine ⟨accepted, ?_⟩
    rw [IntervalMap.lookup_fillGaps]
    · rw [IntervalMap.lookup_mapMeeting_cut]
      by_cases inside : address ∈ declaration.region
      · cases accesses.lookup address <;> simp [inside]
      · simp [inside]
    · intro address
      rw [IntervalMap.lookup_mapMeeting_cut, IntervalMap.lookup_cut]
      split
      · exact Option.map_eq_none_iff
      · exact Iff.rfl
  · cases registered

theorem mem_covering {declarations : List AccessDeclaration}
    {declaration : AccessDeclaration} {address : Nat} :
    declaration ∈ covering declarations address ↔
      declaration ∈ declarations ∧ address ∈ declaration.region := by
  unfold covering
  rw [List.mem_filter, decide_eq_true_eq]

namespace Describe

variable {accesses : IntervalMap DataAccess}
  {declarations : List AccessDeclaration}

theorem describes (known : Describe accesses declarations) {address : Nat}
    {access : DataAccess} (found : accesses.lookup address = some access) :
    access.Describes (covering declarations address) := by
  have here := known address
  rw [found] at here
  exact here

theorem exists_access (known : Describe accesses declarations)
    {address : Nat} {declaration : AccessDeclaration}
    (member : declaration ∈ covering declarations address) :
    ∃ access, accesses.lookup address = some access := by
  have here := known address
  cases found : accesses.lookup address with
  | some access => exact ⟨access, rfl⟩
  | none =>
      rw [found] at here
      rw [here] at member
      cases member

/-- A declaration is accepted if it conflicts with none that it overlaps. -/
theorem upgradable_iff (known : Describe accesses declarations)
    (declaration : AccessDeclaration) :
    upgradable accesses declaration = true ↔
      ∀ other ∈ declarations, ∀ address ∈ other.region,
        address ∈ declaration.region → ¬ other.Conflicts declaration := by
  unfold upgradable
  simp only [List.all_eq_true, Bool.or_eq_true, Bool.not_eq_true',
    decide_eq_false_iff_not]
  constructor
  · intro accepted other member address inOther inside
    have covers := mem_covering.mpr ⟨member, inOther⟩
    obtain ⟨access, found⟩ := known.exists_access covers
    obtain ⟨piece, isPiece, inPiece, rfl⟩ := accesses.lookup_eq_some.mp found
    rw [← (known.describes found).upgradeAccess_eq_none declaration covers]
    have isSome := (accepted piece isPiece).resolve_left
      (not_not_intro (Interval.meets_of_mem inPiece inside))
    exact Option.isSome_iff_ne_none.mp isSome
  · intro apart piece isPiece
    by_cases meets : piece.interval.Meets declaration.region
    · right
      have shared : max piece.interval.start declaration.region.start ∈
          piece.interval.inter declaration.region := ⟨Nat.le_refl _, meets⟩
      obtain ⟨inPiece, inside⟩ := Interval.mem_inter.mp shared
      have described := known.describes
        (accesses.lookup_of_mem isPiece inPiece)
      obtain ⟨other, rest, equality⟩ :=
        List.exists_cons_of_ne_nil described.covers
      have covers : other ∈ covering declarations
          (max piece.interval.start declaration.region.start) := by
        rw [equality]
        exact List.mem_cons_self
      obtain ⟨member, inOther⟩ := mem_covering.mp covers
      rw [Option.isSome_iff_ne_none, Ne,
        described.upgradeAccess_eq_none declaration covers]
      exact apart other member _ inOther inside
    · exact Or.inl meets

/-- One declaration more. -/
theorem register (known : Describe accesses declarations) (task : TaskId)
    (declaration : AccessDeclaration) :
    (registerTaskDataAccess task accesses declaration = none ↔
      ∃ other ∈ declarations, ∃ address ∈ other.region,
        address ∈ declaration.region ∧ other.Conflicts declaration) ∧
    ∀ result, registerTaskDataAccess task accesses declaration =
      some result → Describe result (declarations ++ [declaration]) := by
  by_cases positive : declaration.region.Nonempty
  · constructor
    · have accepted := known.upgradable_iff declaration
      unfold registerTaskDataAccess
      rw [decide_eq_true positive, Bool.not_true, if_neg (by simp)]
      split
      · rename_i isUpgradable
        have apart := accepted.mp isUpgradable
        simp only [reduceCtorEq, false_iff]
        rintro ⟨other, member, address, inOther, inside, conflicts⟩
        exact apart other member address inOther inside conflicts
      · rename_i refused
        rw [accepted] at refused
        simp only [not_forall, not_not, exists_prop] at refused
        simp only [true_iff]
        exact refused
    · intro result registered address
      obtain ⟨isUpgradable, read⟩ :=
        lookup_registerTaskDataAccess positive registered address
      have apart := (known.upgradable_iff declaration).mp isUpgradable
      rw [read, covering_append]
      by_cases inside : address ∈ declaration.region
      · simp only [if_pos inside]
        cases found : accesses.lookup address with
        | none =>
            have uncovered := known address
            rw [found] at uncovered
            rw [uncovered, List.nil_append]
            exact DataAccess.Describes.created task declaration _
        | some access =>
            have described := known.describes found
            obtain ⟨other, rest, equality⟩ :=
              List.exists_cons_of_ne_nil described.covers
            have covers : other ∈ covering declarations address := by
              rw [equality]
              exact List.mem_cons_self
            obtain ⟨member, inOther⟩ := mem_covering.mp covers
            have accepted := apart other member address inOther inside
            rw [← described.upgradeAccess_eq_none declaration covers]
              at accepted
            obtain ⟨changed, isChanged⟩ :=
              Option.ne_none_iff_exists'.mp accepted
            simp only [isChanged, Option.getD_some]
            exact described.upgrade isChanged _
      · simp only [if_neg inside, List.append_nil]
        exact known address
  · have nowhere : ∀ address, address ∉ declaration.region := by
      intro address inside
      simp only [Interval.Nonempty] at positive
      simp only [Interval.mem_iff] at inside
      omega
    have skipped : registerTaskDataAccess task accesses declaration =
        some accesses := by
      unfold registerTaskDataAccess
      rw [decide_eq_false positive]
      rfl
    rw [skipped]
    constructor
    · simp only [reduceCtorEq, false_iff]
      rintro ⟨other, -, address, -, inside, -⟩
      exact nowhere address inside
    · rintro result ⟨⟩ address
      rw [covering_append, if_neg (nowhere address), List.append_nil]
      exact known address

end Describe

theorem AccessDeclaration.Conflicts.symm {first second : AccessDeclaration}
    (conflicts : first.Conflicts second) : second.Conflicts first := by
  rcases conflicts with mixed | ⟨isFirst, isSecond, index⟩
  · exact Or.inl fun same => mixed same.symm
  · exact Or.inr ⟨isSecond, isFirst, Ne.symm index⟩

theorem AccessDeclaration.not_conflicts_self
    (declaration : AccessDeclaration) :
    ¬ declaration.Conflicts declaration := by
  rintro (mixed | ⟨-, -, index⟩)
  · exact mixed Iff.rfl
  · exact index rfl

/-- A conflict is with one of the declarations before. -/
theorem haveConflict_append {declarations : List AccessDeclaration}
    {declaration : AccessDeclaration}
    (accepted : ¬ HaveConflict declarations) :
    HaveConflict (declarations ++ [declaration]) ↔
      ∃ other ∈ declarations, ∃ address ∈ other.region,
        address ∈ declaration.region ∧ other.Conflicts declaration := by
  constructor
  · rintro ⟨first, isFirst, second, isSecond, ⟨address, inFirst, inSecond⟩,
      conflicts⟩
    rcases List.mem_append.mp isFirst with oldFirst | newFirst
    · rcases List.mem_append.mp isSecond with oldSecond | newSecond
      · exact absurd ⟨first, oldFirst, second, oldSecond,
          ⟨address, inFirst, inSecond⟩, conflicts⟩ accepted
      · cases List.mem_singleton.mp newSecond
        exact ⟨first, oldFirst, address, inFirst, inSecond, conflicts⟩
    · cases List.mem_singleton.mp newFirst
      rcases List.mem_append.mp isSecond with oldSecond | newSecond
      · exact ⟨second, oldSecond, address, inSecond, inFirst,
          conflicts.symm⟩
      · cases List.mem_singleton.mp newSecond
        exact absurd conflicts declaration.not_conflicts_self
  · rintro ⟨other, member, address, inOther, inside, conflicts⟩
    exact ⟨other, List.mem_append_left _ member, declaration,
      List.mem_append_right _ (List.mem_singleton.mpr rfl),
      ⟨address, inOther, inside⟩, conflicts⟩

theorem not_haveConflict_nil : ¬ HaveConflict [] := by
  rintro ⟨first, member, -⟩
  cases member

theorem HaveConflict.mono {declarations more : List AccessDeclaration}
    (conflict : HaveConflict declarations)
    (subset : ∀ declaration ∈ declarations, declaration ∈ more) :
    HaveConflict more := by
  obtain ⟨first, isFirst, second, isSecond, conflicts⟩ := conflict
  exact ⟨first, subset first isFirst, second, subset second isSecond,
    conflicts⟩

/-- The declarations one after the other. -/
theorem Describe.foldlM {accesses : IntervalMap DataAccess}
    {declarations : List AccessDeclaration}
    (known : Describe accesses declarations)
    (accepted : ¬ HaveConflict declarations) (task : TaskId)
    (more : List AccessDeclaration) :
    (more.foldlM (registerTaskDataAccess task) accesses = none ↔
      HaveConflict (declarations ++ more)) ∧
    ∀ result, more.foldlM (registerTaskDataAccess task) accesses =
      some result → Describe result (declarations ++ more) := by
  induction more generalizing accesses declarations with
  | nil =>
      rw [List.append_nil]
      constructor
      · exact iff_of_false (Option.some_ne_none _) accepted
      · rintro result ⟨⟩
        exact known
  | cons declaration rest inductionHypothesis =>
      obtain ⟨refused, described⟩ := known.register task declaration
      rw [← haveConflict_append accepted] at refused
      have shape : declarations ++ declaration :: rest =
          declarations ++ [declaration] ++ rest := by
        rw [List.append_assoc]
        rfl
      rw [List.foldlM_cons, shape]
      cases taken : registerTaskDataAccess task accesses declaration with
      | none =>
          constructor
          · refine iff_of_true rfl ((refused.mp taken).mono ?_)
            intro other member
            exact List.mem_append_left _ member
          · rintro result ⟨⟩
      | some next =>
          refine inductionHypothesis (described next taken) ?_
          rw [← refused, taken]
          exact Option.some_ne_none _

theorem describe_empty : Describe IntervalMap.empty [] :=
  fun _ => rfl

theorem Describe.isUpgrade {accesses : IntervalMap DataAccess}
    {declarations : List AccessDeclaration}
    (known : Describe accesses declarations) :
    IsUpgrade declarations accesses := by
  refine ⟨accesses.nonempty, ?_, ?_, ?_⟩
  · refine accesses.ordered.imp fun before => ?_
    simp only [Interval.Meets, Interval.Nonempty, Interval.inter]
    omega
  · intro address
    constructor
    · rintro ⟨piece, member, inside⟩
      have described := known.describes
        (accesses.lookup_of_mem member inside)
      obtain ⟨declaration, rest, equality⟩ :=
        List.exists_cons_of_ne_nil described.covers
      refine ⟨declaration, mem_covering.mp ?_⟩
      rw [equality]
      exact List.mem_cons_self
    · rintro ⟨declaration, covers⟩
      obtain ⟨access, found⟩ :=
        known.exists_access (mem_covering.mpr covers)
      obtain ⟨piece, member, inside, -⟩ := accesses.lookup_eq_some.mp found
      exact ⟨piece, member, inside⟩
  · intro piece member address inside
    exact (known.describes
      (accesses.lookup_of_mem member inside)).isUpgradeOf

/-! ## The order of the declarations -/

/-- What the declarations say about a byte. -/
def DataAccess.declared (access : DataAccess) : DataAccessType × Bool :=
  (access.type, access.weak)

/-- The declarations that cover a byte determine the access. -/
theorem DataAccess.IsUpgradeOf.declared_eq {first second : DataAccess}
    {covering others : List AccessDeclaration}
    (isFirst : first.IsUpgradeOf covering)
    (isSecond : second.IsUpgradeOf others)
    (same : ∀ declaration, declaration ∈ others ↔ declaration ∈ covering)
    (nonempty : covering ≠ []) : second.declared = first.declared := by
  have weak : second.weak = first.weak := by
    rw [Bool.eq_iff_iff, isFirst.weak, isSecond.weak]
    simp only [same]
  have type : second.type = first.type := by
    obtain ⟨head, rest, equality⟩ := List.exists_cons_of_ne_nil nonempty
    have isHead : head ∈ covering := by
      rw [equality]
      exact List.mem_cons_self
    by_cases all : ∀ declaration ∈ covering, declaration.type = head.type
    · rw [isFirst.type head.type all]
      apply isSecond.type
      intro declaration member
      exact all declaration ((same declaration).mp member)
    · simp only [not_forall] at all
      obtain ⟨other, isOther, differ⟩ := all
      rw [isFirst.readwrite other isOther head isHead differ]
      exact isSecond.readwrite other ((same other).mpr isOther) head
        ((same head).mpr isHead) differ
  unfold declared
  rw [type, weak]

theorem Describe.declared_eq {accesses others : IntervalMap DataAccess}
    {first second : List AccessDeclaration}
    (known : Describe accesses first) (other : Describe others second)
    (perm : second.Perm first) (address : Nat) :
    (others.lookup address).map DataAccess.declared =
      (accesses.lookup address).map DataAccess.declared := by
  have same : ∀ declaration, declaration ∈ covering second address ↔
      declaration ∈ covering first address := by
    intro declaration
    rw [mem_covering, mem_covering, perm.mem_iff]
  have here := known address
  have there := other address
  cases found : accesses.lookup address with
  | none =>
      rw [found] at here
      cases also : others.lookup address with
      | none => rfl
      | some access =>
          rw [also] at there
          simp only at here
          refine absurd ?_ there.covers
          rw [List.eq_nil_iff_forall_not_mem]
          intro declaration member
          rw [same, here] at member
          cases member
  | some access =>
      rw [found] at here
      cases also : others.lookup address with
      | none =>
          rw [also] at there
          simp only at there
          refine absurd ?_ here.covers
          rw [List.eq_nil_iff_forall_not_mem]
          intro declaration member
          rw [← same, there] at member
          cases member
      | some access =>
          rw [also] at there
          rw [Option.map_some, Option.map_some,
            here.isUpgradeOf.declared_eq there.isUpgradeOf same here.covers]

theorem registerDepinfo_upgrades (task : TaskId)
    (declarations : List AccessDeclaration) :
    (registerDepinfo task declarations = none ↔
      HaveConflict declarations) ∧
    (∀ accesses, registerDepinfo task declarations = some accesses →
      IsUpgrade declarations accesses) ∧
    ∀ other : List AccessDeclaration, other.Perm declarations →
      ∀ address, ((registerDepinfo task other).map fun accesses =>
          (accesses.lookup address).map DataAccess.declared) =
        (registerDepinfo task declarations).map fun accesses =>
          (accesses.lookup address).map DataAccess.declared := by
  have spec (declarations : List AccessDeclaration) :=
    describe_empty.foldlM not_haveConflict_nil task declarations
  simp only [List.nil_append] at spec
  obtain ⟨refused, described⟩ := spec declarations
  refine ⟨refused, fun accesses registered =>
    (described accesses registered).isUpgrade, ?_⟩
  intro other perm address
  obtain ⟨otherRefused, otherDescribed⟩ := spec other
  cases result : registerDepinfo task declarations with
  | none =>
      have conflict := refused.mp result
      have also : registerDepinfo task other = none := otherRefused.mpr
        (conflict.mono fun declaration member => perm.mem_iff.mpr member)
      rw [also]
  | some accesses =>
      cases otherResult : registerDepinfo task other with
      | none =>
          have conflict := otherRefused.mp otherResult
          have also : registerDepinfo task declarations = none :=
            refused.mpr (conflict.mono fun declaration member =>
              perm.mem_iff.mp member)
          rw [result] at also
          cases also
      | some others =>
          rw [Option.map_some, Option.map_some,
            (described accesses result).declared_eq
              (otherDescribed others otherResult) perm]

end Nanos6
