import Mathlib.Tactic.Ring
import Nanos6.Foundation.Memory

/-!
# Multidimensional accesses

An access to a part of an array is given by a size, a start and an end for each
dimension, from the outermost one, which counts rows, to the innermost one, which
counts bytes.  It is registered as a list of regions: a dimension that follows
and is accessed as a whole is merged with the current one, and otherwise each
index of the current one is registered on its own.

Sizes and bounds are of type `long`, strides and addresses of type `size_t`.  A
product or a sum that does not fit in its type is not defined here, so the
results are about the arguments for which none overflows.
-/

namespace Nanos6.Multidimensional

open Foundation

/-- One more than the largest value of type `long`. -/
def longLimit : Nat := 2 ^ 63

/-- One more than the largest value of type `size_t`. -/
def sizeLimit : Nat := 2 ^ 64

/-- A value of a type that ends at `limit`. -/
def checked (limit value : Nat) : Option Nat :=
  if value < limit then some value else none

structure Dimension where
  size : Nat
  start : Nat
  stop : Nat
  deriving DecidableEq, Repr

namespace Dimension

/-- The bounds of a dimension. -/
def IsOrdered (dimension : Dimension) : Prop :=
  dimension.start ≤ dimension.stop ∧ dimension.stop ≤ dimension.size

instance (dimension : Dimension) : Decidable dimension.IsOrdered :=
  inferInstanceAs (Decidable (_ ∧ _))

/-- `currentDimensionIsContinuous`. -/
def isContinuous (dimension : Dimension) : Bool :=
  dimension.start == 0 && dimension.stop == dimension.size

/-- The current dimension merged with a whole one of a given size. -/
def merge (current : Dimension) (size : Nat) : Dimension where
  size := current.size * size
  start := current.start * size
  stop := current.stop * size

/-- The arguments of `register_data_access_skip_next`. -/
def mergeNext (current next : Dimension) : Option Dimension :=
  (checked longLimit (current.size * next.size)).bind fun size =>
    (checked longLimit (current.start * next.size)).bind fun start =>
      (checked longLimit (current.stop * next.size)).map fun stop =>
        ⟨size, start, stop⟩

end Dimension

def getStride : List Dimension → Option Nat
  | [] => some 1
  | current :: others =>
      (getStride others).bind fun stride =>
        checked sizeLimit (current.size * stride)

/-- Neither a null address nor an empty region is registered. -/
def registerAccess (start length : Nat) : List Range :=
  if start = 0 ∨ length = 0 then [] else [⟨start, length⟩]

def registerDataAccessBase (baseAddress : Nat) (current : Dimension) :
    Option (List Range) :=
  (checked sizeLimit (baseAddress + current.start)).map fun start =>
    registerAccess start (current.stop - current.start)

/-- The loop over the indices of a dimension, which advances the address by the
stride. -/
def registerStrided (register : Nat → Option (List Range)) (stride : Nat) :
    Nat → Nat → Option (List Range)
  | 0, _ => some []
  | count + 1, currentBaseAddress =>
      (register currentBaseAddress).bind fun regions =>
        (checked sizeLimit (currentBaseAddress + stride)).bind fun next =>
          (registerStrided register stride count next).map fun rest =>
            regions ++ rest

def registerDataAccess : Nat → Dimension → List Dimension →
    Option (List Range)
  | baseAddress, current, [] => registerDataAccessBase baseAddress current
  | baseAddress, current, next :: others =>
      if next.isContinuous then
        (current.mergeNext next).bind fun merged =>
          registerDataAccess baseAddress merged others
      else
        (getStride (next :: others)).bind fun stride =>
          (checked sizeLimit (current.start * stride)).bind fun offset =>
            (checked sizeLimit (baseAddress + offset)).bind fun first =>
              registerStrided
                (fun currentBaseAddress =>
                  registerDataAccess currentBaseAddress next others)
                stride (current.stop - current.start) first

/-! ### The bytes of an access -/

/-- The size of an array with the given dimensions. -/
def extent : List Dimension → Nat
  | [] => 1
  | current :: others => current.size * extent others

/-- The offsets of the bytes that are accessed. -/
def Accesses : List Dimension → Nat → Prop
  | [], offset => offset = 0
  | current :: others, offset =>
      ∃ index inner, current.start ≤ index ∧ index < current.stop ∧
        Accesses others inner ∧ offset = index * extent others + inner

/-- The regions are disjoint and hold the bytes of the access. -/
structure Registers (baseAddress : Nat) (dimensions : List Dimension)
    (regions : List Range) : Prop where
  disjoint : regions.Pairwise Range.Disjoint
  covers : ∀ byte,
    (∃ region ∈ regions, region.Contains byte) ↔
      ∃ offset, Accesses dimensions offset ∧ byte = baseAddress + offset

/-! ### The arithmetic -/

theorem checked_eq_some {limit value result : Nat}
    (fits : checked limit value = some result) : result = value := by
  unfold checked at fits
  split at fits
  · exact (Option.some.inj fits).symm
  · cases fits

theorem getStride_eq {dimensions : List Dimension} {stride : Nat}
    (computed : getStride dimensions = some stride) :
    stride = extent dimensions := by
  induction dimensions generalizing stride with
  | nil => exact (Option.some.inj computed).symm
  | cons current others inductionHypothesis =>
      obtain ⟨inner, rest, product⟩ := Option.bind_eq_some_iff.mp computed
      rw [checked_eq_some product, inductionHypothesis rest, extent]

theorem mergeNext_eq {current next merged : Dimension}
    (computed : current.mergeNext next = some merged) :
    merged = current.merge next.size := by
  unfold Dimension.mergeNext at computed
  obtain ⟨size, sizeFits, computed⟩ := Option.bind_eq_some_iff.mp computed
  obtain ⟨start, startFits, computed⟩ := Option.bind_eq_some_iff.mp computed
  obtain ⟨stop, stopFits, rfl⟩ := Option.map_eq_some_iff.mp computed
  rw [checked_eq_some sizeFits, checked_eq_some startFits,
    checked_eq_some stopFits]
  rfl

theorem Dimension.isOrdered_merge {current : Dimension}
    (ordered : current.IsOrdered) (size : Nat) :
    (current.merge size).IsOrdered :=
  ⟨Nat.mul_le_mul_right _ ordered.1, Nat.mul_le_mul_right _ ordered.2⟩

theorem Dimension.bounds_of_isContinuous {dimension : Dimension}
    (whole : dimension.isContinuous = true) :
    dimension.start = 0 ∧ dimension.stop = dimension.size := by
  unfold Dimension.isContinuous at whole
  rw [Bool.and_eq_true, beq_iff_eq, beq_iff_eq] at whole
  exact whole

/-- The bytes of an access lie in the array. -/
theorem lt_extent {dimensions : List Dimension}
    (ordered : ∀ dimension ∈ dimensions, dimension.IsOrdered) {offset : Nat}
    (accessed : Accesses dimensions offset) : offset < extent dimensions := by
  induction dimensions generalizing offset with
  | nil =>
      rw [show offset = 0 from accessed]
      exact Nat.one_pos
  | cons current others inductionHypothesis =>
      obtain ⟨index, inner, -, below, rest, rfl⟩ := accessed
      have inside := inductionHypothesis
        (fun dimension member =>
          ordered dimension (List.mem_cons_of_mem _ member)) rest
      have bound := (ordered current List.mem_cons_self).2
      have rows : (index + 1) * extent others ≤
          current.size * extent others :=
        Nat.mul_le_mul_right _ (by omega)
      rw [extent]
      rw [Nat.succ_mul] at rows
      omega

/-- The index of a merged dimension is an index of each of the two. -/
theorem accesses_merge {current next : Dimension}
    (whole : next.isContinuous = true) (others : List Dimension)
    (offset : Nat) :
    Accesses (current.merge next.size :: others) offset ↔
      Accesses (current :: next :: others) offset := by
  obtain ⟨start, stop⟩ := Dimension.bounds_of_isContinuous whole
  constructor
  · rintro ⟨index, inner, above, below, rest, rfl⟩
    change current.start * next.size ≤ index at above
    change index < current.stop * next.size at below
    have positive : 0 < next.size := by
      rcases Nat.eq_zero_or_pos next.size with zero | positive
      · rw [zero, Nat.mul_zero] at below
        exact absurd below (Nat.not_lt_zero _)
      · exact positive
    refine ⟨index / next.size, index % next.size * extent others + inner,
      ?_, ?_, ?_, ?_⟩
    · exact (Nat.le_div_iff_mul_le positive).mpr above
    · exact (Nat.div_lt_iff_lt_mul positive).mpr below
    · refine ⟨index % next.size, inner, ?_, ?_, rest, rfl⟩
      · rw [start]
        exact Nat.zero_le _
      · rw [stop]
        exact Nat.mod_lt _ positive
    · have parts := Nat.div_add_mod index next.size
      calc
        index * extent others + inner =
            (next.size * (index / next.size) + index % next.size) *
              extent others + inner := by rw [parts]
        _ = index / next.size * extent (next :: others) +
              (index % next.size * extent others + inner) := by
            rw [extent]
            ring
  · rintro ⟨index, rest, above, below, ⟨column, inner, -, inside, accessed,
      rfl⟩, rfl⟩
    rw [stop] at inside
    refine ⟨index * next.size + column, inner, ?_, ?_, accessed, ?_⟩
    · have least : current.start * next.size ≤ index * next.size :=
        Nat.mul_le_mul_right _ above
      exact least.trans (Nat.le_add_right _ _)
    · have rows : (index + 1) * next.size ≤ current.stop * next.size :=
        Nat.mul_le_mul_right _ below
      rw [Nat.succ_mul] at rows
      change index * next.size + column < current.stop * next.size
      omega
    · rw [extent]
      ring

/-! ### The registration -/

theorem contains_registerAccess {start length byte : Nat}
    (notNull : 0 < start) :
    (∃ region ∈ registerAccess start length, region.Contains byte) ↔
      start ≤ byte ∧ byte < start + length := by
  unfold registerAccess
  constructor
  · rintro ⟨region, member, contains⟩
    split at member
    · cases member
    · rw [List.mem_singleton.mp member] at contains
      exact contains
  · intro inside
    rw [if_neg (by omega)]
    exact ⟨_, List.mem_cons_self, inside⟩

theorem registers_base {baseAddress : Nat} (notNull : 0 < baseAddress)
    {current : Dimension} {regions : List Range}
    (registered : registerDataAccessBase baseAddress current = some regions) :
    Registers baseAddress [current] regions := by
  unfold registerDataAccessBase at registered
  obtain ⟨start, sum, rfl⟩ := Option.map_eq_some_iff.mp registered
  obtain rfl := checked_eq_some sum
  refine ⟨?_, fun byte => ?_⟩
  · unfold registerAccess
    split
    · exact List.Pairwise.nil
    · exact List.pairwise_singleton _ _
  · rw [contains_registerAccess (by omega)]
    constructor
    · intro inside
      exact ⟨byte - baseAddress,
        ⟨byte - baseAddress, 0, by omega, by omega, rfl, by
          rw [extent]
          omega⟩, by omega⟩
    · rintro ⟨offset, ⟨index, inner, above, below, none, rfl⟩, rfl⟩
      rw [show inner = 0 from none, extent]
      omega

/-- A loop over regions that lie between multiples of the stride. -/
theorem registers_strided {register : Nat → Option (List Range)}
    {dimensions : List Dimension}
    (ordered : ∀ dimension ∈ dimensions, dimension.IsOrdered)
    (spec : ∀ address regions, 0 < address →
      register address = some regions → Registers address dimensions regions)
    (count : Nat) :
    ∀ first regions, 0 < first →
      registerStrided register (extent dimensions) count first =
        some regions →
      regions.Pairwise Range.Disjoint ∧
        ∀ byte, (∃ region ∈ regions, region.Contains byte) ↔
          ∃ index offset, index < count ∧ Accesses dimensions offset ∧
            byte = first + index * extent dimensions + offset := by
  induction count with
  | zero =>
      intro first regions _ registered
      cases registered
      refine ⟨List.Pairwise.nil, fun byte => ⟨?_, ?_⟩⟩
      · rintro ⟨region, impossible, -⟩
        cases impossible
      · rintro ⟨index, offset, impossible, -⟩
        exact absurd impossible (Nat.not_lt_zero _)
  | succ count inductionHypothesis =>
      intro first regions notNull registered
      rw [registerStrided] at registered
      obtain ⟨here, atFirst, registered⟩ :=
        Option.bind_eq_some_iff.mp registered
      obtain ⟨next, sum, registered⟩ := Option.bind_eq_some_iff.mp registered
      obtain ⟨later, fromNext, rfl⟩ := Option.map_eq_some_iff.mp registered
      obtain rfl := checked_eq_some sum
      have current := spec first here notNull atFirst
      obtain ⟨disjoint, covers⟩ := inductionHypothesis _ later
        (Nat.add_pos_left notNull _) fromNext
      refine ⟨List.pairwise_append.mpr
        ⟨current.disjoint, disjoint, ?_⟩, fun byte => ?_⟩
      · intro region member other otherMember byte inRegion inOther
        obtain ⟨offset, accessed, rfl⟩ :=
          (current.covers byte).mp ⟨region, member, inRegion⟩
        obtain ⟨index, after, -, -, equal⟩ :=
          (covers _).mp ⟨other, otherMember, inOther⟩
        have below := lt_extent ordered accessed
        omega
      · constructor
        · rintro ⟨region, member, contains⟩
          rcases List.mem_append.mp member with inHere | inLater
          · obtain ⟨offset, accessed, rfl⟩ :=
              (current.covers byte).mp ⟨region, inHere, contains⟩
            exact ⟨0, offset, Nat.succ_pos _, accessed, by
              rw [Nat.zero_mul, Nat.add_zero]⟩
          · obtain ⟨index, offset, below, accessed, rfl⟩ :=
              (covers byte).mp ⟨region, inLater, contains⟩
            exact ⟨index + 1, offset, Nat.succ_lt_succ below, accessed, by
              rw [Nat.succ_mul]
              omega⟩
        · rintro ⟨index, offset, below, accessed, rfl⟩
          cases index with
          | zero =>
              rw [Nat.zero_mul, Nat.add_zero]
              obtain ⟨region, member, contains⟩ :=
                (current.covers _).mpr ⟨offset, accessed, rfl⟩
              exact ⟨region, List.mem_append_left _ member, contains⟩
          | succ index =>
              obtain ⟨region, member, contains⟩ := (covers _).mpr
                ⟨index, offset, Nat.lt_of_succ_lt_succ below, accessed, rfl⟩
              refine ⟨region, List.mem_append_right _ member, ?_⟩
              rw [Nat.succ_mul, Nat.add_comm _ (extent dimensions),
                ← Nat.add_assoc]
              exact contains

/-- The rows of a dimension, counted from its start. -/
theorem accesses_rows (current : Dimension) (others : List Dimension)
    (baseAddress byte : Nat) :
    (∃ index offset, index < current.stop - current.start ∧
        Accesses others offset ∧
        byte = baseAddress + current.start * extent others +
          index * extent others + offset) ↔
      ∃ offset, Accesses (current :: others) offset ∧
        byte = baseAddress + offset := by
  constructor
  · rintro ⟨index, offset, below, accessed, rfl⟩
    refine ⟨(current.start + index) * extent others + offset,
      ⟨current.start + index, offset, Nat.le_add_right _ _, by omega,
        accessed, rfl⟩, ?_⟩
    rw [Nat.add_mul]
    omega
  · rintro ⟨_, ⟨index, offset, above, below, accessed, rfl⟩, rfl⟩
    refine ⟨index - current.start, offset, by omega, accessed, ?_⟩
    have rows : current.start * extent others +
        (index - current.start) * extent others = index * extent others := by
      rw [← Nat.add_mul, Nat.add_sub_cancel' above]
    omega

theorem registers_of_eq_some {baseAddress : Nat}
    {current : Dimension} {others : List Dimension} {regions : List Range}
    (notNull : 0 < baseAddress)
    (ordered : ∀ dimension ∈ current :: others, dimension.IsOrdered)
    (registered : registerDataAccess baseAddress current others =
      some regions) :
    Registers baseAddress (current :: others) regions := by
  induction others generalizing baseAddress current regions with
  | nil => exact registers_base notNull registered
  | cons next others inductionHypothesis =>
      have later : ∀ dimension ∈ next :: others, dimension.IsOrdered :=
        fun dimension member =>
          ordered dimension (List.mem_cons_of_mem _ member)
      rw [registerDataAccess] at registered
      split at registered
      · rename_i whole
        obtain ⟨merged, computed, registered⟩ :=
          Option.bind_eq_some_iff.mp registered
        obtain rfl := mergeNext_eq computed
        have spec := inductionHypothesis notNull
          (List.forall_mem_cons.mpr
            ⟨Dimension.isOrdered_merge (ordered current List.mem_cons_self) _,
              (List.forall_mem_cons.mp later).2⟩) registered
        refine ⟨spec.disjoint, fun byte => ?_⟩
        rw [spec.covers]
        simp only [accesses_merge whole]
      · obtain ⟨stride, product, registered⟩ :=
          Option.bind_eq_some_iff.mp registered
        obtain rfl := getStride_eq product
        obtain ⟨offset, rows, registered⟩ :=
          Option.bind_eq_some_iff.mp registered
        obtain rfl := checked_eq_some rows
        obtain ⟨first, sum, registered⟩ :=
          Option.bind_eq_some_iff.mp registered
        obtain rfl := checked_eq_some sum
        obtain ⟨disjoint, covers⟩ := registers_strided later
          (fun address regions addressNotNull atAddress =>
            inductionHypothesis addressNotNull later atAddress)
          _ _ _ (Nat.add_pos_left notNull _) registered
        refine ⟨disjoint, fun byte => ?_⟩
        rw [covers, accesses_rows]

/-! ### Arrays in the address space -/

/-- The size of an array, not less than that of its largest part. -/
def wideExtent : List Dimension → Nat
  | [] => 1
  | current :: others => max 1 current.size * wideExtent others

theorem extent_le (dimensions : List Dimension) :
    extent dimensions ≤ wideExtent dimensions := by
  induction dimensions with
  | nil => exact le_rfl
  | cons current others inductionHypothesis =>
      exact Nat.mul_le_mul (Nat.le_max_right _ _) inductionHypothesis

theorem wideExtent_pos (dimensions : List Dimension) :
    0 < wideExtent dimensions := by
  induction dimensions with
  | nil => exact Nat.one_pos
  | cons current others inductionHypothesis =>
      exact Nat.mul_pos (Nat.lt_of_lt_of_le Nat.one_pos
        (Nat.le_max_left _ _)) inductionHypothesis

theorem wideExtent_le_cons (current : Dimension) (others : List Dimension) :
    wideExtent others ≤ wideExtent (current :: others) :=
  Nat.le_mul_of_pos_left _
    (Nat.lt_of_lt_of_le Nat.one_pos (Nat.le_max_left _ _))

theorem wideExtent_merge (current next : Dimension)
    (others : List Dimension) :
    wideExtent (current.merge next.size :: others) ≤
      wideExtent (current :: next :: others) := by
  unfold wideExtent
  rw [wideExtent, ← Nat.mul_assoc]
  apply Nat.mul_le_mul_right
  apply Nat.max_le.mpr
  constructor
  · exact Nat.mul_pos
      (Nat.lt_of_lt_of_le Nat.one_pos (Nat.le_max_left _ _))
      (Nat.lt_of_lt_of_le Nat.one_pos (Nat.le_max_left _ _))
  · exact Nat.mul_le_mul (Nat.le_max_right _ _) (Nat.le_max_right _ _)

theorem checked_of_lt {limit value : Nat} (fits : value < limit) :
    checked limit value = some value :=
  if_pos fits

theorem getStride_of_lt {dimensions : List Dimension}
    (fits : wideExtent dimensions < sizeLimit) :
    getStride dimensions = some (extent dimensions) := by
  induction dimensions with
  | nil => rfl
  | cons current others inductionHypothesis =>
      have inner := wideExtent_le_cons current others
      have whole := extent_le (current :: others)
      rw [getStride, inductionHypothesis (by omega), Option.bind_some]
      exact checked_of_lt (by rw [← extent]; omega)

theorem exists_registerStrided {register : Nat → Option (List Range)}
    {stride : Nat} (count : Nat) :
    ∀ first, first + count * stride < sizeLimit →
      (∀ index < count, ∃ regions,
        register (first + index * stride) = some regions) →
      ∃ regions, registerStrided register stride count first =
        some regions := by
  induction count with
  | zero => exact fun _ _ _ => ⟨[], rfl⟩
  | succ count inductionHypothesis =>
      intro first fits each
      rw [Nat.succ_mul] at fits
      obtain ⟨here, atFirst⟩ := each 0 (Nat.succ_pos _)
      rw [Nat.zero_mul, Nat.add_zero] at atFirst
      obtain ⟨later, fromNext⟩ := inductionHypothesis (first + stride)
        (by omega) fun index below => by
          obtain ⟨regions, registered⟩ :=
            each (index + 1) (Nat.succ_lt_succ below)
          rw [Nat.succ_mul, Nat.add_comm _ stride,
            ← Nat.add_assoc] at registered
          exact ⟨regions, registered⟩
      refine ⟨here ++ later, ?_⟩
      rw [registerStrided, atFirst, Option.bind_some,
        checked_of_lt (by omega), Option.bind_some, fromNext,
        Option.map_some]

/-- Nothing overflows for an array that ends below the limit of `long`. -/
theorem exists_registerDataAccess {baseAddress : Nat} {current : Dimension}
    {others : List Dimension}
    (ordered : ∀ dimension ∈ current :: others, dimension.IsOrdered)
    (fits : baseAddress + wideExtent (current :: others) < longLimit) :
    ∃ regions, registerDataAccess baseAddress current others =
      some regions := by
  have limits : longLimit ≤ sizeLimit := by decide
  induction others generalizing baseAddress current with
  | nil =>
      have bounds := ordered current List.mem_cons_self
      unfold Dimension.IsOrdered at bounds
      have size := Nat.le_max_right 1 current.size
      rw [wideExtent, wideExtent, Nat.mul_one] at fits
      rw [registerDataAccess, registerDataAccessBase,
        checked_of_lt (by omega), Option.map_some]
      exact ⟨_, rfl⟩
  | cons next others inductionHypothesis =>
      have bounds := ordered current List.mem_cons_self
      unfold Dimension.IsOrdered at bounds
      have later : ∀ dimension ∈ next :: others, dimension.IsOrdered :=
        fun dimension member =>
          ordered dimension (List.mem_cons_of_mem _ member)
      rw [registerDataAccess]
      split
      · have merged := wideExtent_merge current next others
        have size : current.size * next.size ≤
            wideExtent (current.merge next.size :: others) :=
          (Nat.le_max_right 1 _).trans
            (Nat.le_mul_of_pos_right _ (wideExtent_pos others))
        have start : current.start * next.size ≤ current.stop * next.size :=
          Nat.mul_le_mul_right _ bounds.1
        have stop : current.stop * next.size ≤ current.size * next.size :=
          Nat.mul_le_mul_right _ bounds.2
        have computed : current.mergeNext next =
            some (current.merge next.size) := by
          rw [Dimension.mergeNext, checked_of_lt (by omega),
            Option.bind_some, checked_of_lt (by omega), Option.bind_some,
            checked_of_lt (by omega), Option.map_some]
          rfl
        rw [computed, Option.bind_some]
        exact inductionHypothesis
          (List.forall_mem_cons.mpr
            ⟨⟨start, stop⟩, (List.forall_mem_cons.mp later).2⟩) (by omega)
      · have stride := extent_le (next :: others)
        have inner := wideExtent_le_cons current (next :: others)
        have rows : ∀ {index : Nat}, index ≤ current.size →
            index * extent (next :: others) ≤
              current.size * wideExtent (next :: others) :=
          fun below => Nat.mul_le_mul below stride
        have array : current.size * wideExtent (next :: others) ≤
            wideExtent (current :: next :: others) :=
          Nat.mul_le_mul_right _ (Nat.le_max_right _ _)
        have startRows := rows (bounds.1.trans bounds.2)
        have stopRows := rows bounds.2
        have between : current.start * extent (next :: others) +
            (current.stop - current.start) * extent (next :: others) =
              current.stop * extent (next :: others) := by
          rw [← Nat.add_mul, Nat.add_sub_cancel' bounds.1]
        rw [getStride_of_lt (by omega), Option.bind_some,
          checked_of_lt (by omega), Option.bind_some,
          checked_of_lt (by omega), Option.bind_some]
        apply exists_registerStrided
        · omega
        · intro index below
          apply inductionHypothesis later
          have row : (current.start + index + 1) *
              wideExtent (next :: others) ≤
                current.size * wideExtent (next :: others) :=
            Nat.mul_le_mul_right _ (by omega)
          have before : (current.start + index) * extent (next :: others) ≤
              (current.start + index) * wideExtent (next :: others) :=
            Nat.mul_le_mul_left _ stride
          rw [Nat.succ_mul] at row
          rw [Nat.add_mul] at before
          omega

/-- Whenever nothing overflows the regions are disjoint and hold the bytes of the
access. -/
theorem registers_registerDataAccess {baseAddress : Nat}
    {current : Dimension} {others : List Dimension}
    (notNull : 0 < baseAddress)
    (ordered : ∀ dimension ∈ current :: others, dimension.IsOrdered) :
    (∀ regions, registerDataAccess baseAddress current others =
        some regions → Registers baseAddress (current :: others) regions) ∧
      (baseAddress + wideExtent (current :: others) < longLimit →
        ∃ regions, registerDataAccess baseAddress current others =
          some regions) :=
  ⟨fun _ => registers_of_eq_some notNull ordered,
    exists_registerDataAccess ordered⟩

/-- Two rows of two whole lines, of each of which four bytes are accessed. -/
theorem registers_lines :
    Registers 1000 [⟨4, 1, 3⟩, ⟨2, 0, 2⟩, ⟨8, 2, 6⟩]
      [⟨1018, 4⟩, ⟨1026, 4⟩, ⟨1034, 4⟩, ⟨1042, 4⟩] :=
  (registers_registerDataAccess (by decide) (by decide)).1 _ (by decide)

end Nanos6.Multidimensional
