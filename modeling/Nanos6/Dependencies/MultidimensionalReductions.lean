import Nanos6.Dependencies.Multidimensional

/-!
# Multidimensional reductions

The registration of a reduction is a copy of the one of the other accesses, but
for two differences.  Its loop over the indices of a dimension registers the base
address each time, and not the address that it advances.  And a single dimension
is registered as a whole, since only reductions of whole objects are supported.
-/

namespace Nanos6.Multidimensional

open Foundation

/-- `nanos6_register_region_reduction_depinfo1` and the weak one register the
whole dimension.  Their assertion that it starts at 0 is left out, as with
`NDEBUG`. -/
def registerReductionBase (baseAddress : Nat) (current : Dimension) :
    List Range :=
  registerAccess baseAddress current.size

def registerReductionAccess : Nat → Dimension → List Dimension →
    Option (List Range)
  | baseAddress, current, [] =>
      some (registerReductionBase baseAddress current)
  | baseAddress, current, next :: others =>
      if next.isContinuous then
        (current.mergeNext next).bind fun merged =>
          registerReductionAccess baseAddress merged others
      else
        (getStride (next :: others)).bind fun stride =>
          (checked sizeLimit (current.start * stride)).bind fun offset =>
            (checked sizeLimit (baseAddress + offset)).bind fun first =>
              -- The advanced address is not used.
              registerStrided
                (fun _ => registerReductionAccess baseAddress next others)
                stride (current.stop - current.start) first

/-! ### When the two registrations agree -/

/-- The size of the array from the last dimension on that is not accessed as a
whole. -/
def lastExtent : Dimension → List Dimension → Nat
  | current, [] => current.size
  | current, next :: others =>
      if (next :: others).all Dimension.isContinuous then
        extent (current :: next :: others)
      else lastExtent next others

/-- A dimension before the last partial one is not accessed at all. -/
def SkipsLoop : Dimension → List Dimension → Prop
  | _, [] => False
  | current, next :: others =>
      if (next :: others).all Dimension.isContinuous then False
      else current.start = current.stop ∨ SkipsLoop next others

/-- All regions start at the base address. -/
def StaysAtBase : Dimension → List Dimension → Prop
  | current, [] => current.start = 0
  | current, next :: others =>
      if (next :: others).all Dimension.isContinuous then current.start = 0
      else current.stop = 1 ∧ StaysAtBase next others

/-- What the dimensions have to be for a reduction to register the bytes of the
access.  Nothing is registered at a null address. -/
def RegistersAlike (baseAddress : Nat) (current : Dimension)
    (others : List Dimension) : Prop :=
  if baseAddress = 0 then
    (∃ dimension ∈ current :: others, dimension.start = dimension.stop) ∨
      StaysAtBase current others
  else
    (∀ dimension ∈ current :: others, dimension.isContinuous = true) ∨
      SkipsLoop current others ∨ lastExtent current others = 0

/-- The bytes that are registered. -/
def Holds (regions : List Range) (byte : Nat) : Prop :=
  ∃ region ∈ regions, region.Contains byte

theorem not_holds_nil (byte : Nat) : ¬ Holds [] byte := by
  rintro ⟨region, impossible, -⟩
  cases impossible

theorem holds_append {first second : List Range} {byte : Nat} :
    Holds (first ++ second) byte ↔ Holds first byte ∨ Holds second byte := by
  constructor
  · rintro ⟨region, member, contains⟩
    rcases List.mem_append.mp member with inFirst | inSecond
    · exact Or.inl ⟨region, inFirst, contains⟩
    · exact Or.inr ⟨region, inSecond, contains⟩
  · rintro (⟨region, member, contains⟩ | ⟨region, member, contains⟩)
    · exact ⟨region, List.mem_append_left _ member, contains⟩
    · exact ⟨region, List.mem_append_right _ member, contains⟩

/-- A loop holds what its iterations hold. -/
theorem holds_strided {register : Nat → Option (List Range)} {stride : Nat}
    (count : Nat) :
    ∀ first regions,
      registerStrided register stride count first = some regions →
      ∀ byte, Holds regions byte ↔
        ∃ index here, index < count ∧
          register (first + index * stride) = some here ∧
          Holds here byte := by
  induction count with
  | zero =>
      intro first regions registered byte
      cases registered
      refine ⟨fun impossible => absurd impossible (not_holds_nil byte), ?_⟩
      rintro ⟨index, here, impossible, -⟩
      exact absurd impossible (Nat.not_lt_zero _)
  | succ count inductionHypothesis =>
      intro first regions registered byte
      rw [registerStrided] at registered
      obtain ⟨here, atFirst, registered⟩ :=
        Option.bind_eq_some_iff.mp registered
      obtain ⟨next, sum, registered⟩ := Option.bind_eq_some_iff.mp registered
      obtain ⟨later, fromNext, rfl⟩ := Option.map_eq_some_iff.mp registered
      obtain rfl := checked_eq_some sum
      rw [holds_append, inductionHypothesis _ later fromNext byte]
      constructor
      · rintro (holds | ⟨index, regions, below, registered, holds⟩)
        · refine ⟨0, here, Nat.succ_pos _, ?_, holds⟩
          rw [Nat.zero_mul, Nat.add_zero]
          exact atFirst
        · refine ⟨index + 1, regions, Nat.succ_lt_succ below, ?_, holds⟩
          rw [Nat.succ_mul, Nat.add_comm _ stride, ← Nat.add_assoc]
          exact registered
      · rintro ⟨index, regions, below, registered, holds⟩
        cases index with
        | zero =>
            rw [Nat.zero_mul, Nat.add_zero, atFirst] at registered
            cases registered
            exact Or.inl holds
        | succ index =>
            rw [Nat.succ_mul, Nat.add_comm _ stride,
              ← Nat.add_assoc] at registered
            exact Or.inr ⟨index, regions, Nat.lt_of_succ_lt_succ below,
              registered, holds⟩

/-! ### What a reduction registers -/

section Merge

variable {current next : Dimension} {others : List Dimension}

theorem lastExtent_merge (whole : next.isContinuous = true) :
    lastExtent (current.merge next.size) others =
      lastExtent current (next :: others) := by
  cases others with
  | nil =>
      simp only [lastExtent, List.all_cons, whole, List.all_nil,
        Bool.and_self, if_true, extent, Dimension.merge, Nat.mul_one]
  | cons after others =>
      simp only [lastExtent, List.all_cons (a := next), whole, Bool.true_and]
      split
      · simp only [extent, Dimension.merge, Nat.mul_assoc]
      · rfl

theorem skipsLoop_merge (whole : next.isContinuous = true) :
    SkipsLoop (current.merge next.size) others ↔
      SkipsLoop current (next :: others) := by
  obtain ⟨start, stop⟩ := Dimension.bounds_of_isContinuous whole
  cases others with
  | nil => simp [SkipsLoop, whole]
  | cons after others =>
      simp only [SkipsLoop, List.all_cons (a := next), whole, Bool.true_and]
      split
      · exact Iff.rfl
      · rw [start, stop, ← or_assoc]
        apply or_congr_left
        change current.start * next.size = current.stop * next.size ↔ _
        rw [mul_eq_mul_right_iff]
        exact or_congr_right eq_comm

theorem staysAtBase_merge (whole : next.isContinuous = true)
    (some : 0 < next.size) :
    StaysAtBase (current.merge next.size) others ↔
      StaysAtBase current (next :: others) := by
  obtain ⟨start, stop⟩ := Dimension.bounds_of_isContinuous whole
  have zero : current.start * next.size = 0 ↔ current.start = 0 := by
    rw [Nat.mul_eq_zero]
    exact or_iff_left (by omega)
  cases others with
  | nil =>
      simp only [StaysAtBase, List.all_cons, whole, List.all_nil,
        Bool.and_self, if_true]
      exact zero
  | cons after others =>
      simp only [StaysAtBase, List.all_cons (a := next), whole, Bool.true_and]
      split
      · exact zero
      · rw [stop, ← and_assoc]
        apply and_congr_left'
        constructor
        · intro product
          exact ⟨Nat.eq_one_of_mul_eq_one_right product,
            Nat.eq_one_of_mul_eq_one_left product⟩
        · rintro ⟨one, unit⟩
          change current.stop * next.size = 1
          rw [one, unit]

end Merge

/-- Nothing is registered at a null address. -/
theorem not_holds_null {current : Dimension} {others : List Dimension}
    {regions : List Range}
    (registered : registerReductionAccess 0 current others = some regions)
    (byte : Nat) : ¬ Holds regions byte := by
  induction others generalizing current regions with
  | nil =>
      cases registered
      exact not_holds_nil byte
  | cons next others inductionHypothesis =>
      rw [registerReductionAccess] at registered
      split at registered
      · obtain ⟨merged, -, registered⟩ :=
          Option.bind_eq_some_iff.mp registered
        exact inductionHypothesis registered
      · obtain ⟨stride, -, registered⟩ :=
          Option.bind_eq_some_iff.mp registered
        obtain ⟨offset, -, registered⟩ :=
          Option.bind_eq_some_iff.mp registered
        obtain ⟨first, -, registered⟩ :=
          Option.bind_eq_some_iff.mp registered
        rw [holds_strided _ _ _ registered]
        rintro ⟨index, here, -, atBase, holds⟩
        exact inductionHypothesis atBase holds

/-- A loop returns only when each of its iterations does. -/
theorem register_of_strided {register : Nat → Option (List Range)}
    {stride : Nat} (count : Nat) :
    ∀ first regions,
      registerStrided register stride count first = some regions →
      ∀ index < count, ∃ here,
        register (first + index * stride) = some here := by
  induction count with
  | zero =>
      exact fun _ _ _ index impossible =>
        absurd impossible index.not_lt_zero
  | succ count inductionHypothesis =>
      intro first regions registered index below
      rw [registerStrided] at registered
      obtain ⟨here, atFirst, registered⟩ :=
        Option.bind_eq_some_iff.mp registered
      obtain ⟨next, sum, registered⟩ := Option.bind_eq_some_iff.mp registered
      obtain ⟨later, fromNext, -⟩ := Option.map_eq_some_iff.mp registered
      obtain rfl := checked_eq_some sum
      cases index with
      | zero =>
          rw [Nat.zero_mul, Nat.add_zero]
          exact ⟨here, atFirst⟩
      | succ index =>
          rw [Nat.succ_mul, Nat.add_comm _ stride, ← Nat.add_assoc]
          exact inductionHypothesis _ later fromNext index
            (Nat.lt_of_succ_lt_succ below)

/-- The bytes from the base address on, whatever the starts are. -/
theorem holds_registerReductionAccess {baseAddress : Nat}
    {current : Dimension} {others : List Dimension} {regions : List Range}
    (notNull : 0 < baseAddress)
    (ordered : ∀ dimension ∈ current :: others, dimension.IsOrdered)
    (registered : registerReductionAccess baseAddress current others =
      some regions) (byte : Nat) :
    Holds regions byte ↔ ¬ SkipsLoop current others ∧ baseAddress ≤ byte ∧
      byte < baseAddress + lastExtent current others := by
  induction others generalizing current regions with
  | nil =>
      cases registered
      rw [Holds, registerReductionBase, contains_registerAccess notNull]
      exact (and_iff_right not_false).symm
  | cons next others inductionHypothesis =>
      obtain ⟨here, later⟩ := List.forall_mem_cons.mp ordered
      rw [registerReductionAccess] at registered
      split at registered
      · rename_i whole
        obtain ⟨merged, computed, registered⟩ :=
          Option.bind_eq_some_iff.mp registered
        obtain rfl := mergeNext_eq computed
        rw [inductionHypothesis
          (List.forall_mem_cons.mpr
            ⟨Dimension.isOrdered_merge here _,
              (List.forall_mem_cons.mp later).2⟩) registered,
          skipsLoop_merge whole, lastExtent_merge whole]
      · rename_i partly
        obtain ⟨stride, -, registered⟩ :=
          Option.bind_eq_some_iff.mp registered
        obtain ⟨offset, -, registered⟩ :=
          Option.bind_eq_some_iff.mp registered
        obtain ⟨first, -, registered⟩ :=
          Option.bind_eq_some_iff.mp registered
        have notAll : ¬ ((next :: others).all Dimension.isContinuous) =
            true := by
          rw [List.all_cons, Bool.and_eq_true]
          exact fun all => partly all.1
        rw [holds_strided _ _ _ registered, SkipsLoop, if_neg notAll,
          lastExtent, if_neg notAll, not_or]
        constructor
        · rintro ⟨index, regions, below, atBase, holds⟩
          obtain ⟨kept, inside⟩ :=
            (inductionHypothesis later atBase).mp holds
          exact ⟨⟨by omega, kept⟩, inside⟩
        · rintro ⟨⟨nonempty, kept⟩, inside⟩
          have bound := here.1
          obtain ⟨regions, atBase⟩ :=
            register_of_strided _ _ _ registered 0 (by omega)
          exact ⟨0, regions, by omega, atBase,
            (inductionHypothesis later atBase).mpr ⟨kept, inside⟩⟩

/-! ### The bytes of the access -/

section Dimensions

variable {current : Dimension} {others dimensions : List Dimension}

theorem accesses_of_whole
    (whole : ∀ dimension ∈ dimensions, dimension.isContinuous = true)
    (offset : Nat) :
    Accesses dimensions offset ↔ offset < extent dimensions := by
  induction dimensions generalizing offset with
  | nil =>
      rw [Accesses, extent]
      omega
  | cons current others inductionHypothesis =>
      obtain ⟨here, later⟩ := List.forall_mem_cons.mp whole
      obtain ⟨start, stop⟩ := Dimension.bounds_of_isContinuous here
      rw [Accesses, extent]
      simp only [inductionHypothesis later]
      constructor
      · rintro ⟨index, inner, -, below, inside, rfl⟩
        have rows : (index + 1) * extent others ≤
            current.size * extent others :=
          Nat.mul_le_mul_right _ (by omega)
        rw [Nat.succ_mul] at rows
        omega
      · intro inside
        have positive : 0 < extent others := by
          rcases Nat.eq_zero_or_pos (extent others) with zero | positive
          · rw [zero, Nat.mul_zero] at inside
            exact absurd inside (Nat.not_lt_zero _)
          · exact positive
        refine ⟨offset / extent others, offset % extent others, ?_, ?_,
          Nat.mod_lt _ positive, ?_⟩
        · rw [start]
          exact Nat.zero_le _
        · rw [stop]
          exact (Nat.div_lt_iff_lt_mul positive).mpr inside
        · rw [Nat.mul_comm]
          exact (Nat.div_add_mod _ _).symm

theorem not_accesses_of_empty
    (empty : ∃ dimension ∈ dimensions, dimension.start = dimension.stop)
    (offset : Nat) : ¬ Accesses dimensions offset := by
  induction dimensions generalizing offset with
  | nil =>
      obtain ⟨dimension, impossible, -⟩ := empty
      cases impossible
  | cons current others inductionHypothesis =>
      rintro ⟨index, inner, above, below, rest, -⟩
      obtain ⟨dimension, member, equal⟩ := empty
      rcases List.mem_cons.mp member with rfl | later
      · omega
      · exact inductionHypothesis ⟨dimension, later, equal⟩ inner rest

theorem exists_accesses
    (ordered : ∀ dimension ∈ dimensions, dimension.IsOrdered)
    (nonempty : ∀ dimension ∈ dimensions, dimension.start ≠ dimension.stop) :
    ∃ offset, Accesses dimensions offset := by
  induction dimensions with
  | nil => exact ⟨0, rfl⟩
  | cons current others inductionHypothesis =>
      obtain ⟨here, later⟩ := List.forall_mem_cons.mp ordered
      obtain ⟨some, rest⟩ := List.forall_mem_cons.mp nonempty
      obtain ⟨inner, accessed⟩ := inductionHypothesis later rest
      have bound := here.1
      exact ⟨_, current.start, inner, le_rfl, by omega, accessed, rfl⟩

theorem lastExtent_of_whole
    (whole : others.all Dimension.isContinuous = true) :
    lastExtent current others = extent (current :: others) := by
  cases others with
  | nil => exact (Nat.mul_one _).symm
  | cons next others => exact if_pos whole

theorem not_skipsLoop_of_whole
    (whole : others.all Dimension.isContinuous = true) :
    ¬ SkipsLoop current others := by
  cases others with
  | nil => exact not_false
  | cons next others =>
      rw [SkipsLoop, if_pos whole]
      exact not_false

theorem exists_empty_of_skipsLoop (skips : SkipsLoop current others) :
    ∃ dimension ∈ current :: others, dimension.start = dimension.stop := by
  induction others generalizing current with
  | nil => exact absurd skips not_false
  | cons next others inductionHypothesis =>
      rw [SkipsLoop] at skips
      split at skips
      · exact absurd skips not_false
      · rcases skips with here | later
        · exact ⟨current, List.mem_cons_self, here⟩
        · obtain ⟨dimension, member, empty⟩ := inductionHypothesis later
          exact ⟨dimension, List.mem_cons_of_mem _ member, empty⟩

theorem extent_of_lastExtent (zero : lastExtent current others = 0) :
    extent (current :: others) = 0 := by
  induction others generalizing current with
  | nil =>
      rw [lastExtent] at zero
      rw [extent, zero, Nat.zero_mul]
  | cons next others inductionHypothesis =>
      rw [lastExtent] at zero
      split at zero
      · exact zero
      · rw [extent, inductionHypothesis zero, Nat.mul_zero]

theorem lastExtent_le
    (ordered : ∀ dimension ∈ current :: others, dimension.IsOrdered)
    (kept : ¬ SkipsLoop current others) :
    lastExtent current others ≤ extent (current :: others) := by
  induction others generalizing current with
  | nil => exact (lastExtent_of_whole rfl).le
  | cons next others inductionHypothesis =>
      obtain ⟨here, later⟩ := List.forall_mem_cons.mp ordered
      by_cases whole : (next :: others).all Dimension.isContinuous = true
      · exact (lastExtent_of_whole whole).le
      · rw [SkipsLoop, if_neg whole, not_or] at kept
        unfold Dimension.IsOrdered at here
        rw [lastExtent, if_neg whole, extent]
        exact (inductionHypothesis later kept.2).trans
          (Nat.le_mul_of_pos_left _ (by omega))

/-- An access that holds the first byte and the last one of the array. -/
theorem isContinuous_of_accesses
    (whole : others.all Dimension.isContinuous = true)
    (ordered : current.IsOrdered)
    (some : 0 < extent (current :: others))
    (accessed : ∀ offset < extent (current :: others),
      Accesses (current :: others) offset) : current.isContinuous = true := by
  have positive : 0 < extent others := by
    rw [extent] at some
    exact Nat.pos_of_mul_pos_left some
  have inside := accesses_of_whole (List.all_eq_true.mp whole)
  obtain ⟨first, inner, above, -, -, zero⟩ := accessed 0 some
  have start : first = 0 := by
    rcases Nat.eq_zero_or_pos first with zero | later
    · exact zero
    · have rows := Nat.le_mul_of_pos_left (extent others) later
      omega
  obtain ⟨last, inner, -, below, rest, equal⟩ :=
    accessed (extent (current :: others) - 1) (by omega)
  rw [inside] at rest
  have stop : current.size ≤ current.stop := by
    by_contra short
    have rows : (last + 1 + 1) * extent others ≤
        current.size * extent others :=
      Nat.mul_le_mul_right _ (by omega)
    rw [extent] at equal
    rw [Nat.succ_mul, Nat.succ_mul] at rows
    omega
  unfold Dimension.IsOrdered at ordered
  unfold Dimension.isContinuous
  rw [Bool.and_eq_true, beq_iff_eq, beq_iff_eq]
  omega

/-- The dimensions for which the first bytes of the array are the accessed ones,
by induction from the outermost dimension. -/
theorem whole_of_accesses
    (ordered : ∀ dimension ∈ current :: others, dimension.IsOrdered)
    (kept : ¬ SkipsLoop current others)
    (some : 0 < lastExtent current others)
    (accessed : ∀ offset, offset < lastExtent current others ↔
      Accesses (current :: others) offset) :
    ∀ dimension ∈ current :: others, dimension.isContinuous = true := by
  induction others generalizing current with
  | nil =>
      rw [lastExtent_of_whole rfl] at some accessed
      rw [List.forall_mem_singleton]
      exact isContinuous_of_accesses rfl (ordered current List.mem_cons_self)
        some fun offset below => (accessed offset).mp below
  | cons next others inductionHypothesis =>
      obtain ⟨here, later⟩ := List.forall_mem_cons.mp ordered
      by_cases whole : (next :: others).all Dimension.isContinuous = true
      · rw [lastExtent_of_whole whole] at some accessed
        exact List.forall_mem_cons.mpr
          ⟨isContinuous_of_accesses whole here some fun offset below =>
            (accessed offset).mp below, List.all_eq_true.mp whole⟩
      · rw [SkipsLoop, if_neg whole, not_or] at kept
        rw [lastExtent, if_neg whole] at some accessed
        have inside := lastExtent_le later kept.2
        -- Only the first row reaches the bytes, so it is like the array.
        have row : ∀ {index inner : Nat},
            index * extent (next :: others) + inner <
              lastExtent next others → index = 0 := by
          intro index inner below
          rcases Nat.eq_zero_or_pos index with zero | later
          · exact zero
          · have rows :=
              Nat.le_mul_of_pos_left (extent (next :: others)) later
            omega
        refine absurd (List.all_eq_true.mpr
          (inductionHypothesis later kept.2 some fun offset => ?_)) whole
        constructor
        · intro below
          obtain ⟨index, inner, -, -, rest, rfl⟩ := (accessed offset).mp below
          obtain rfl := row below
          rw [Nat.zero_mul, Nat.zero_add]
          exact rest
        · intro rest
          have bound := here.1
          have below := (accessed _).mpr
            ⟨current.start, offset, le_rfl, by omega, rest, rfl⟩
          rw [row below, Nat.zero_mul, Nat.zero_add] at below
          exact below

theorem accesses_alike_iff
    (ordered : ∀ dimension ∈ current :: others, dimension.IsOrdered) :
    (∀ offset, (¬ SkipsLoop current others ∧
        offset < lastExtent current others) ↔
      Accesses (current :: others) offset) ↔
      (∀ dimension ∈ current :: others, dimension.isContinuous = true) ∨
        SkipsLoop current others ∨ lastExtent current others = 0 := by
  constructor
  · intro alike
    by_cases skips : SkipsLoop current others
    · exact Or.inr (Or.inl skips)
    · rcases Nat.eq_zero_or_pos (lastExtent current others) with zero | some
      · exact Or.inr (Or.inr zero)
      · refine Or.inl (whole_of_accesses ordered skips some fun offset => ?_)
        rw [← alike offset]
        exact (and_iff_right skips).symm
  · rintro (whole | skips | zero) offset
    · have tail := List.all_eq_true.mpr (List.forall_mem_cons.mp whole).2
      rw [accesses_of_whole whole, lastExtent_of_whole tail]
      exact and_iff_right (not_skipsLoop_of_whole tail)
    · exact iff_of_false (fun both => both.1 skips)
        (not_accesses_of_empty (exists_empty_of_skipsLoop skips) offset)
    · refine iff_of_false (fun both => ?_) fun accessed => ?_
      · omega
      · have inside := lt_extent ordered accessed
        rw [extent_of_lastExtent zero] at inside
        exact absurd inside (Nat.not_lt_zero _)

end Dimensions

/-! ### At a null address -/

theorem exists_empty_merge {current next : Dimension}
    {others : List Dimension} (whole : next.isContinuous = true) :
    (∃ dimension ∈ current.merge next.size :: others,
        dimension.start = dimension.stop) ↔
      ∃ dimension ∈ current :: next :: others,
        dimension.start = dimension.stop := by
  obtain ⟨start, stop⟩ := Dimension.bounds_of_isContinuous whole
  simp only [List.mem_cons, exists_eq_or_imp]
  rw [start, stop, ← or_assoc]
  apply or_congr_left
  change current.start * next.size = current.stop * next.size ↔ _
  rw [mul_eq_mul_right_iff]
  exact or_congr_right eq_comm

/-- At an address that is not null, nothing is registered only for an empty
dimension. -/
theorem empty_of_not_holds {baseAddress : Nat} {current : Dimension}
    {others : List Dimension} {regions : List Range}
    (notNull : 0 < baseAddress)
    (ordered : ∀ dimension ∈ current :: others, dimension.IsOrdered)
    (registered : registerDataAccess baseAddress current others =
      some regions) (none : ∀ byte, ¬ Holds regions byte) :
    ∃ dimension ∈ current :: others, dimension.start = dimension.stop := by
  by_contra nonempty
  push Not at nonempty
  obtain ⟨offset, accessed⟩ := exists_accesses ordered nonempty
  have spec := registers_of_eq_some notNull ordered registered
  exact none _ ((spec.covers _).mpr ⟨offset, accessed, rfl⟩)

/-- Nothing is registered for an empty dimension. -/
theorem not_holds_of_empty {baseAddress : Nat} {current : Dimension}
    {others : List Dimension} {regions : List Range}
    (notNull : 0 < baseAddress)
    (ordered : ∀ dimension ∈ current :: others, dimension.IsOrdered)
    (registered : registerDataAccess baseAddress current others =
      some regions)
    (empty : ∃ dimension ∈ current :: others,
      dimension.start = dimension.stop) (byte : Nat) :
    ¬ Holds regions byte := by
  intro holds
  have spec := registers_of_eq_some notNull ordered registered
  obtain ⟨offset, accessed, -⟩ := (spec.covers byte).mp holds
  exact not_accesses_of_empty empty offset accessed

/-- The loop over a dimension: the row at index 0 is at the null address. -/
theorem not_holds_rows_iff {current next : Dimension}
    {others : List Dimension} {regions : List Range}
    (ordered : ∀ dimension ∈ current :: next :: others, dimension.IsOrdered)
    (atNull : ∀ here, registerDataAccess 0 next others = some here →
      ((∀ byte, ¬ Holds here byte) ↔
        (∃ dimension ∈ next :: others, dimension.start = dimension.stop) ∨
          StaysAtBase next others))
    (registered : registerStrided
      (fun currentBaseAddress =>
        registerDataAccess currentBaseAddress next others)
      (extent (next :: others)) (current.stop - current.start)
      (current.start * extent (next :: others)) = some regions) :
    (∀ byte, ¬ Holds regions byte) ↔
      (∃ dimension ∈ current :: next :: others,
        dimension.start = dimension.stop) ∨
        (current.stop = 1 ∧ StaysAtBase next others) := by
  obtain ⟨here, later⟩ := List.forall_mem_cons.mp ordered
  have bound := here.1
  simp only [holds_strided _ _ _ registered]
  constructor
  · intro none
    rw [or_iff_not_imp_left]
    intro nonempty
    push Not at nonempty
    obtain ⟨some, rest⟩ := List.forall_mem_cons.mp nonempty
    obtain ⟨offset, accessed⟩ := exists_accesses later rest
    have positive := lt_extent later accessed
    have one : current.stop = 1 := by
      by_contra more
      obtain ⟨last, atLast⟩ := register_of_strided _ _ _ registered
        (current.stop - current.start - 1) (by omega)
      obtain ⟨dimension, member, empty⟩ := empty_of_not_holds
        (by
          rw [← Nat.add_mul]
          exact Nat.mul_pos (by omega) (by omega)) later atLast
        fun byte holds => none byte ⟨_, last, by omega, atLast, holds⟩
      exact rest dimension member empty
    have start : current.start = 0 := by omega
    obtain ⟨first, atFirst⟩ := register_of_strided _ _ _ registered 0
      (by omega)
    have unheld : ∀ byte, ¬ Holds first byte := fun byte holds =>
      none byte ⟨0, first, by omega, atFirst, holds⟩
    rw [start, Nat.zero_mul] at atFirst
    rcases (atNull first atFirst).mp unheld with empty | stays
    · obtain ⟨dimension, member, equal⟩ := empty
      exact absurd equal (rest dimension member)
    · exact ⟨one, stays⟩
  · rintro alike byte ⟨index, regions, below, atIndex, holds⟩
    rcases alike with ⟨dimension, member, empty⟩ | ⟨one, stays⟩
    · rcases List.mem_cons.mp member with rfl | inner
      · omega
      · rcases Nat.eq_zero_or_pos (current.start * extent (next :: others) +
          index * extent (next :: others)) with zero | notNull
        · rw [zero] at atIndex
          exact (atNull regions atIndex).mpr
            (Or.inl ⟨dimension, inner, empty⟩) byte holds
        · exact not_holds_of_empty notNull later atIndex
            ⟨dimension, inner, empty⟩ byte holds
    · have start : current.start = 0 := by omega
      have first : index = 0 := by omega
      rw [start, first, Nat.zero_mul] at atIndex
      exact (atNull regions atIndex).mpr (Or.inr stays) byte holds

/-- The regions that start at a null address are lost, and only those. -/
theorem not_holds_null_iff {current : Dimension} {others : List Dimension}
    {regions : List Range}
    (ordered : ∀ dimension ∈ current :: others, dimension.IsOrdered)
    (registered : registerDataAccess 0 current others = some regions) :
    (∀ byte, ¬ Holds regions byte) ↔
      (∃ dimension ∈ current :: others, dimension.start = dimension.stop) ∨
        StaysAtBase current others := by
  induction others generalizing current regions with
  | nil =>
      obtain ⟨start, sum, rfl⟩ := Option.map_eq_some_iff.mp registered
      obtain rfl := checked_eq_some sum
      have bound := (ordered current List.mem_cons_self).1
      simp only [List.mem_singleton, exists_eq_left, StaysAtBase]
      constructor
      · intro none
        by_contra some
        refine none current.start ?_
        rw [Holds, contains_registerAccess (by omega)]
        omega
      · intro empty byte
        rw [registerAccess, if_pos (by omega)]
        exact not_holds_nil byte
  | cons next others inductionHypothesis =>
      obtain ⟨here, later⟩ := List.forall_mem_cons.mp ordered
      rw [registerDataAccess] at registered
      split at registered
      · rename_i whole
        obtain ⟨merged, computed, registered⟩ :=
          Option.bind_eq_some_iff.mp registered
        obtain rfl := mergeNext_eq computed
        obtain ⟨start, stop⟩ := Dimension.bounds_of_isContinuous whole
        rw [inductionHypothesis (List.forall_mem_cons.mpr
            ⟨Dimension.isOrdered_merge here _,
              (List.forall_mem_cons.mp later).2⟩) registered,
          exists_empty_merge whole]
        rcases Nat.eq_zero_or_pos next.size with zero | some
        · have empty : ∃ dimension ∈ current :: next :: others,
              dimension.start = dimension.stop :=
            ⟨next, List.mem_cons_of_mem _ List.mem_cons_self, by omega⟩
          exact iff_of_true (Or.inl empty) (Or.inl empty)
        · exact or_congr_right (staysAtBase_merge whole some)
      · rename_i partly
        obtain ⟨stride, product, registered⟩ :=
          Option.bind_eq_some_iff.mp registered
        obtain rfl := getStride_eq product
        obtain ⟨offset, rows, registered⟩ :=
          Option.bind_eq_some_iff.mp registered
        obtain rfl := checked_eq_some rows
        obtain ⟨first, sum, registered⟩ :=
          Option.bind_eq_some_iff.mp registered
        obtain rfl := checked_eq_some sum
        have notAll : ¬ ((next :: others).all Dimension.isContinuous) =
            true := by
          rw [List.all_cons, Bool.and_eq_true]
          exact fun all => partly all.1
        rw [StaysAtBase, if_neg notAll]
        rw [Nat.zero_add] at registered
        exact not_holds_rows_iff ordered
          (fun here atNull => inductionHypothesis later atNull) registered

/-! ### The two registrations -/

/-- A reduction registers the bytes of the access, among the arguments for which
nothing overflows, exactly when it does not need the advanced address. -/
theorem holds_reduction_iff {baseAddress : Nat} {current : Dimension}
    {others : List Dimension} {regions reductions : List Range}
    (ordered : ∀ dimension ∈ current :: others, dimension.IsOrdered)
    (registered : registerDataAccess baseAddress current others =
      some regions)
    (reduced : registerReductionAccess baseAddress current others =
      some reductions) :
    (∀ byte, Holds reductions byte ↔ Holds regions byte) ↔
      RegistersAlike baseAddress current others := by
  unfold RegistersAlike
  split
  · rename_i null
    subst null
    simp only [not_holds_null reduced, false_iff]
    exact not_holds_null_iff ordered registered
  · rename_i address
    have notNull : 0 < baseAddress := Nat.pos_of_ne_zero address
    have spec := registers_of_eq_some notNull ordered registered
    rw [← accesses_alike_iff ordered]
    simp only [holds_registerReductionAccess notNull ordered reduced]
    constructor
    · intro alike offset
      have here := (alike (baseAddress + offset)).trans (spec.covers _)
      have shifted : (∃ other, Accesses (current :: others) other ∧
          baseAddress + offset = baseAddress + other) ↔
            Accesses (current :: others) offset := by
        simp only [Nat.add_left_cancel_iff, exists_eq_right']
      rw [shifted] at here
      rw [← here]
      exact and_congr_right fun _ => by omega
    · intro alike byte
      rw [Holds, spec.covers]
      constructor
      · rintro ⟨kept, above, below⟩
        exact ⟨byte - baseAddress, (alike _).mp ⟨kept, by omega⟩, by omega⟩
      · rintro ⟨offset, accessed, rfl⟩
        obtain ⟨kept, below⟩ := (alike offset).mpr accessed
        exact ⟨kept, by omega, by omega⟩

/-- A whole array of two rows. -/
theorem holds_reduction_whole :
    ∃ regions reductions,
      registerDataAccess 1000 ⟨2, 0, 2⟩ [⟨4, 0, 4⟩] = some regions ∧
      registerReductionAccess 1000 ⟨2, 0, 2⟩ [⟨4, 0, 4⟩] =
        some reductions ∧
      ∀ byte, Holds reductions byte ↔ Holds regions byte := by
  have whole : RegistersAlike 1000 ⟨2, 0, 2⟩ [⟨4, 0, 4⟩] :=
    Or.inl (by decide)
  refine ⟨[⟨1000, 8⟩], [⟨1000, 8⟩], by decide, by decide, ?_⟩
  exact (holds_reduction_iff (by decide) (by decide) (by decide)).mpr whole

/-- Two elements of each of two rows: the second row is not registered, and the
element of the first one that is not accessed is. -/
theorem holds_reduction_fails :
    ∃ regions reductions,
      registerDataAccess 1000 ⟨2, 0, 2⟩ [⟨3, 0, 2⟩, ⟨4, 0, 4⟩] =
        some regions ∧
      registerReductionAccess 1000 ⟨2, 0, 2⟩ [⟨3, 0, 2⟩, ⟨4, 0, 4⟩] =
        some reductions ∧
      ¬ ∀ byte, Holds reductions byte ↔ Holds regions byte := by
  refine ⟨[⟨1000, 8⟩, ⟨1012, 8⟩], [⟨1000, 12⟩, ⟨1000, 12⟩], by decide,
    by decide, fun alike => ?_⟩
  obtain ⟨region, member, contains⟩ := (alike 1012).mpr
    ⟨⟨1012, 8⟩, List.mem_cons_of_mem _ List.mem_cons_self, by decide⟩
  have below : region = ⟨1000, 12⟩ := by
    rcases List.mem_cons.mp member with equal | rest
    · exact equal
    · exact List.mem_singleton.mp rest
  rw [below] at contains
  exact absurd contains.2 (by decide)

end Nanos6.Multidimensional
