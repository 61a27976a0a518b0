import Nanos6.Foundation.Memory
import Nanos6.Foundation.Rounding

/-!
# Virtual memory areas

An area hands out its memory in blocks of whole pages, from its start to its
end, and never takes one back.
-/

namespace Nanos6.VirtualMemory

open Foundation

/-- One more than the largest value of type `size_t`. -/
def sizeLimit : Nat := 2 ^ 64

/-- `ROUND_UP` to the size of a page. -/
def roundUp (pageSize size : Nat) : Nat :=
  roundUpModulo sizeLimit size pageSize

structure VirtualMemoryArea where
  start : Nat
  size : Nat
  /-- The first address not belonging in the area. -/
  stop : Nat
  nextFree : Nat
  available : Nat
  deriving DecidableEq, Repr

namespace VirtualMemoryArea

/-- The constructor. -/
def create (address size : Nat) : VirtualMemoryArea where
  start := address
  size := size
  stop := (address + size) % sizeLimit
  nextFree := address
  available := size

/-- The block, none for the null pointer, and the area after the call. -/
def allocBlock (pageSize : Nat) (area : VirtualMemoryArea) (size : Nat) :
    Option Nat × VirtualMemoryArea :=
  if area.available < roundUp pageSize size then (none, area)
  else
    (some area.nextFree,
      { area with
        available := area.available - roundUp pageSize size
        nextFree := (area.nextFree + roundUp pageSize size) % sizeLimit })

def includesRange (area : VirtualMemoryArea) (address size : Nat) : Bool :=
  area.start ≤ address && (address + size) % sizeLimit < area.stop

def includesAddress (area : VirtualMemoryArea) (address : Nat) : Bool :=
  area.start ≤ address && address < area.stop

/-- The memory of the area. -/
def range (area : VirtualMemoryArea) : Range :=
  ⟨area.start, area.size⟩

/-- The memory that has been handed out. -/
def used (area : VirtualMemoryArea) : Range :=
  ⟨area.start, area.nextFree - area.start⟩

/-- Whole pages, the first `nextFree - start` bytes of which have been handed
out. -/
structure IsValid (pageSize : Nat) (area : VirtualMemoryArea) : Prop where
  notNull : 0 < area.start
  limit : area.start + area.size < sizeLimit
  stop : area.stop = area.start + area.size
  alignedStart : pageSize ∣ area.start
  alignedSize : pageSize ∣ area.size
  started : area.start ≤ area.nextFree
  rest : area.nextFree + area.available = area.stop
  alignedNext : pageSize ∣ area.nextFree

/-- What the constructor is given: whole pages of the address space. -/
structure IsMapping (pageSize : Nat) (range : Range) : Prop where
  notNull : 0 < range.base
  limit : range.limit < sizeLimit
  alignedBase : pageSize ∣ range.base
  alignedSize : pageSize ∣ range.size

instance (pageSize : Nat) (range : Range) :
    Decidable (IsMapping pageSize range) :=
  decidable_of_iff
    (0 < range.base ∧ range.limit < sizeLimit ∧ pageSize ∣ range.base ∧
      pageSize ∣ range.size)
    ⟨fun ⟨notNull, limit, alignedBase, alignedSize⟩ =>
        ⟨notNull, limit, alignedBase, alignedSize⟩,
      fun mapping =>
        ⟨mapping.notNull, mapping.limit, mapping.alignedBase,
          mapping.alignedSize⟩⟩

theorem isValid_create {pageSize address size : Nat}
    (mapping : IsMapping pageSize ⟨address, size⟩) :
    (create address size).IsValid pageSize := by
  have stop : (address + size) % sizeLimit = address + size :=
    Nat.mod_eq_of_lt mapping.limit
  exact
    { notNull := mapping.notNull
      limit := mapping.limit
      stop := stop
      alignedStart := mapping.alignedBase
      alignedSize := mapping.alignedSize
      started := le_rfl
      rest := stop.symm
      alignedNext := mapping.alignedBase }

section AllocBlock

variable {pageSize : Nat} {area : VirtualMemoryArea}

/-- What a call can do: fail and change nothing, or hand out the next pages. -/
theorem allocBlock_cases (valid : area.IsValid pageSize) (size : Nat) :
    (area.available < roundUp pageSize size ∧
        area.allocBlock pageSize size = (none, area)) ∨
      (roundUp pageSize size ≤ area.available ∧
        area.allocBlock pageSize size =
          (some area.nextFree,
            { area with
              available := area.available - roundUp pageSize size
              nextFree := area.nextFree + roundUp pageSize size })) := by
  by_cases fails : area.available < roundUp pageSize size
  · exact Or.inl ⟨fails, if_pos fails⟩
  · refine Or.inr ⟨not_lt.mp fails, ?_⟩
    have limit := valid.limit
    have stop := valid.stop
    have rest := valid.rest
    have next : (area.nextFree + roundUp pageSize size) % sizeLimit =
        area.nextFree + roundUp pageSize size :=
      Nat.mod_eq_of_lt (by omega)
    rw [allocBlock, if_neg fails, next]

theorem isValid_allocBlock (valid : area.IsValid pageSize) (size : Nat) :
    (area.allocBlock pageSize size).2.IsValid pageSize := by
  rcases allocBlock_cases valid size with ⟨-, same⟩ | ⟨enough, taken⟩
  · rw [same]
    exact valid
  · rw [taken]
    have started := valid.started
    have rest := valid.rest
    exact
      { valid with
        started := by dsimp only; omega
        rest := by dsimp only; omega
        alignedNext := Nat.dvd_add valid.alignedNext dvd_roundUpModulo }

/-- The area keeps its place. -/
theorem allocBlock_frame (pageSize size : Nat) (area : VirtualMemoryArea) :
    (area.allocBlock pageSize size).2.start = area.start ∧
      (area.allocBlock pageSize size).2.size = area.size ∧
      (area.allocBlock pageSize size).2.stop = area.stop := by
  unfold allocBlock
  split
  · exact ⟨rfl, rfl, rfl⟩
  · exact ⟨rfl, rfl, rfl⟩

theorem IsValid.dvd_available (valid : area.IsValid pageSize) :
    pageSize ∣ area.available := by
  have whole : pageSize ∣ area.nextFree + area.available := by
    rw [valid.rest, valid.stop]
    exact Nat.dvd_add valid.alignedStart valid.alignedSize
  exact (Nat.dvd_add_right valid.alignedNext).mp whole

/-- The area lies above the first page. -/
theorem IsValid.pageSize_le (valid : area.IsValid pageSize) :
    pageSize ≤ area.start :=
  Nat.le_of_dvd valid.notNull valid.alignedStart

end AllocBlock

/-! ### Sequences of calls -/

/-- One call of `allocBlock` in a sequence. -/
structure Call where
  before : VirtualMemoryArea
  size : Nat
  block : Option Nat
  after : VirtualMemoryArea
  deriving DecidableEq, Repr

def allocBlocks (pageSize : Nat) :
    VirtualMemoryArea → List Nat → List Call
  | _, [] => []
  | area, size :: sizes =>
      let result := area.allocBlock pageSize size
      ⟨area, size, result.1, result.2⟩ ::
        allocBlocks pageSize result.2 sizes

/-- The blocks that have been handed out. -/
def blocks (calls : List Call) : List Range :=
  calls.filterMap fun call => call.block.map fun base => ⟨base, call.size⟩

/-- What a sequence of calls has to return. -/
structure HandsOutBlocks (pageSize : Nat) (area : VirtualMemoryArea)
    (calls : List Call) : Prop where
  notNull : ∀ block ∈ blocks calls, 0 < block.base
  aligned : ∀ block ∈ blocks calls, pageSize ∣ block.base
  within : ∀ block ∈ blocks calls, block.IsWithin area.range
  disjoint : (blocks calls).Pairwise Range.Disjoint
  unchanged : ∀ call ∈ calls, call.block = none → call.after = call.before
  included : ∀ block ∈ blocks calls,
    area.includesRange block.base block.size = true

/-- The size can be rounded up, and is not all that is left. -/
def Call.IsRegular (pageSize : Nat) (call : Call) : Prop :=
  call.size + pageSize ≤ sizeLimit ∧ call.size ≠ call.before.available

instance (pageSize : Nat) (call : Call) :
    Decidable (call.IsRegular pageSize) :=
  inferInstanceAs (Decidable (_ ∧ _))

section AllocBlocks

variable {pageSize : Nat} {area : VirtualMemoryArea} {sizes : List Nat}

/-- Every call is one of `allocBlock`, on a valid area in the same place. -/
theorem mem_allocBlocks (valid : area.IsValid pageSize) {call : Call}
    (member : call ∈ allocBlocks pageSize area sizes) :
    call.size ∈ sizes ∧ call.before.IsValid pageSize ∧
      call.before.range = area.range ∧ call.before.stop = area.stop ∧
      area.nextFree ≤ call.before.nextFree ∧
      call.before.allocBlock pageSize call.size =
        (call.block, call.after) := by
  induction sizes generalizing area with
  | nil => cases member
  | cons size sizes inductionHypothesis =>
      rcases List.mem_cons.mp member with rfl | later
      · exact ⟨List.mem_cons_self, valid, rfl, rfl, le_rfl, rfl⟩
      · obtain ⟨inSizes, validBefore, sameRange, sameStop, further, called⟩ :=
          inductionHypothesis (isValid_allocBlock valid size) later
        obtain ⟨start, total, stop⟩ := allocBlock_frame pageSize size area
        refine ⟨List.mem_cons_of_mem _ inSizes, validBefore, ?_,
          sameStop.trans stop, ?_, called⟩
        · rw [sameRange, range, range, start, total]
        · refine le_trans ?_ further
          rcases allocBlock_cases valid size with ⟨-, same⟩ | ⟨-, taken⟩
          · rw [same]
          · rw [taken]
            exact Nat.le_add_right _ _

theorem mem_blocks {calls : List Call} {block : Range} :
    block ∈ blocks calls ↔
      ∃ call ∈ calls, call.block = some block.base ∧
        call.size = block.size := by
  unfold blocks
  rw [List.mem_filterMap]
  constructor
  · rintro ⟨call, member, found⟩
    obtain ⟨base, returned, rfl⟩ := Option.map_eq_some_iff.mp found
    exact ⟨call, member, returned, rfl⟩
  · rintro ⟨call, member, returned, size⟩
    refine ⟨call, member, ?_⟩
    rw [returned, size]
    rfl

/-- A block of a regular call ends inside the pages that it takes, and before
the end of the area. -/
theorem allocBlock_of_regular (page : 0 < pageSize)
    (valid : area.IsValid pageSize) {size base : Nat}
    (fits : size + pageSize ≤ sizeLimit) (more : size ≠ area.available)
    (returned : (area.allocBlock pageSize size).1 = some base) :
    base = area.nextFree ∧ size < area.available ∧
      base + size ≤ (area.allocBlock pageSize size).2.nextFree := by
  rcases allocBlock_cases valid size with ⟨-, failed⟩ | ⟨enough, taken⟩
  · rw [failed] at returned
    cases returned
  · rw [taken] at returned ⊢
    cases returned
    have rounded := le_roundUpModulo fits page
    unfold roundUp at enough ⊢
    exact ⟨rfl, by omega, by dsimp only; omega⟩

/-- A size that wraps gets a block of no page, and one that takes all that is
left a block that ends with the area. -/
theorem regular_of_allocBlock (page : 0 < pageSize)
    (valid : area.IsValid pageSize) {size : Nat} (small : size < sizeLimit)
    (served : ∀ base, (area.allocBlock pageSize size).1 = some base →
      Range.IsWithin ⟨base, size⟩ area.range ∧
        area.includesRange base size = true) :
    size + pageSize ≤ sizeLimit ∧ size ≠ area.available := by
  have limit := valid.limit
  have stop := valid.stop
  have rest := valid.rest
  have fits : size + pageSize ≤ sizeLimit := by
    by_contra wraps
    have rounded : roundUp pageSize size = 0 :=
      roundUpModulo_eq_zero small (not_le.mp wraps)
    rcases allocBlock_cases valid size with ⟨fails, -⟩ | ⟨-, taken⟩
    · omega
    · obtain ⟨above, below⟩ := (served area.nextFree (by rw [taken])).1
      have first := valid.pageSize_le
      unfold Range.limit range at below
      dsimp only [range] at above below
      omega
  refine ⟨fits, ?_⟩
  rintro rfl
  have rounded : roundUp pageSize area.available = area.available :=
    roundUpModulo_of_dvd fits page valid.dvd_available
  rcases allocBlock_cases valid area.available with ⟨fails, -⟩ | ⟨-, taken⟩
  · omega
  · have included := (served area.nextFree (by rw [taken])).2
    unfold includesRange at included
    rw [rest, Nat.mod_eq_of_lt (by omega)] at included
    simp at included

/-- Later blocks lie behind the earlier ones. -/
theorem disjoint_allocBlocks (page : 0 < pageSize)
    (valid : area.IsValid pageSize)
    (regular : ∀ call ∈ allocBlocks pageSize area sizes,
      call.IsRegular pageSize) :
    (blocks (allocBlocks pageSize area sizes)).Pairwise Range.Disjoint := by
  induction sizes generalizing area with
  | nil => exact List.Pairwise.nil
  | cons size sizes inductionHypothesis =>
      have validAfter := isValid_allocBlock valid size
      have later := inductionHypothesis validAfter
        fun call member => regular call (List.mem_cons_of_mem _ member)
      have first := regular _ List.mem_cons_self
      unfold blocks at later ⊢
      rw [allocBlocks, List.filterMap_cons]
      cases returned : (area.allocBlock pageSize size).1 with
      | none => simpa [returned] using later
      | some base =>
          simp only [returned, Option.map_some]
          refine List.pairwise_cons.mpr ⟨?_, later⟩
          intro block member byte inFirst inBlock
          have ends :
              base + size ≤ (area.allocBlock pageSize size).2.nextFree :=
            (allocBlock_of_regular page valid first.1 first.2 returned).2.2
          obtain ⟨call, inCalls, found, sameSize⟩ := mem_blocks.mp member
          obtain ⟨-, validBefore, -, -, further, called⟩ :=
            mem_allocBlocks validAfter inCalls
          have callRegular := regular call (List.mem_cons_of_mem _ inCalls)
          obtain ⟨same, -, -⟩ := allocBlock_of_regular page validBefore
            callRegular.1 callRegular.2 (by rw [called]; exact found)
          unfold Range.Contains Range.limit at inFirst inBlock
          dsimp only at inFirst
          omega

end AllocBlocks

theorem handsOutBlocks_iff {pageSize address size : Nat}
    (page : 0 < pageSize) (mapping : IsMapping pageSize ⟨address, size⟩)
    {sizes : List Nat} (typed : ∀ size ∈ sizes, size < sizeLimit) :
    HandsOutBlocks pageSize (create address size)
        (allocBlocks pageSize (create address size) sizes) ↔
      ∀ call ∈ allocBlocks pageSize (create address size) sizes,
        call.IsRegular pageSize := by
  have valid := isValid_create mapping
  constructor
  · intro handsOut call member
    obtain ⟨inSizes, validBefore, sameRange, sameStop, -, called⟩ :=
      mem_allocBlocks valid member
    refine regular_of_allocBlock page validBefore
      (typed call.size inSizes) fun base returned => ?_
    rw [called] at returned
    have block : ⟨base, call.size⟩ ∈
        blocks (allocBlocks pageSize (create address size) sizes) :=
      mem_blocks.mpr ⟨call, member, returned, rfl⟩
    have included := handsOut.included _ block
    rw [sameRange]
    refine ⟨handsOut.within _ block, ?_⟩
    have sameStart : call.before.start = (create address size).start :=
      congrArg Range.base sameRange
    unfold includesRange at included ⊢
    rw [sameStart, sameStop]
    exact included
  · intro regular
    have spec : ∀ block ∈
        blocks (allocBlocks pageSize (create address size) sizes),
        address ≤ block.base ∧ block.limit < address + size ∧
          pageSize ∣ block.base := by
      intro block inBlocks
      obtain ⟨call, member, found, sameSize⟩ := mem_blocks.mp inBlocks
      obtain ⟨-, validBefore, sameRange, sameStop, further, called⟩ :=
        mem_allocBlocks valid member
      obtain ⟨fits, more⟩ := regular call member
      obtain ⟨same, below, -⟩ := allocBlock_of_regular page validBefore fits
        more (by rw [called]; exact found)
      have rest := validBefore.rest
      rw [sameStop, valid.stop] at rest
      rw [same, Range.limit, same, ← sameSize]
      exact ⟨further, by
        change _ < (create address size).start + (create address size).size
        omega, validBefore.alignedNext⟩
    have limit : address + size < sizeLimit := mapping.limit
    exact
      { notNull := fun block inBlocks =>
          lt_of_lt_of_le mapping.notNull (spec block inBlocks).1
        aligned := fun block inBlocks => (spec block inBlocks).2.2
        within := fun block inBlocks =>
          ⟨(spec block inBlocks).1, (spec block inBlocks).2.1.le⟩
        disjoint := disjoint_allocBlocks page valid regular
        unchanged := by
          intro call member failed
          obtain ⟨-, validBefore, -, -, -, called⟩ :=
            mem_allocBlocks valid member
          rcases allocBlock_cases validBefore call.size with
            ⟨-, same⟩ | ⟨-, taken⟩
          · rw [called] at same
            exact congrArg Prod.snd same
          · rw [called, failed] at taken
            cases congrArg Prod.fst taken
        included := by
          intro block inBlocks
          obtain ⟨above, below, -⟩ := spec block inBlocks
          unfold Range.limit at below
          have stop : (create address size).stop = address + size := valid.stop
          unfold includesRange
          rw [stop, Nat.mod_eq_of_lt (below.trans limit)]
          exact Bool.and_eq_true _ _ ▸
            ⟨decide_eq_true above, decide_eq_true below⟩ }

/-- Two blocks of an area of four pages. -/
theorem handsOutBlocks_twoBlocks :
    HandsOutBlocks 4096 (create 4096 16384)
      (allocBlocks 4096 (create 4096 16384) [100, 5000]) :=
  (handsOutBlocks_iff (by decide) (by decide) (by decide)).mpr (by decide)

/-- The block that takes the only page ends at the end of the area, which is
not included. -/
theorem handsOutBlocks_fails :
    ¬ ∀ (pageSize address size : Nat) (sizes : List Nat), 0 < pageSize →
      IsMapping pageSize ⟨address, size⟩ →
      (∀ size ∈ sizes, 0 < size ∧ size < sizeLimit) →
        HandsOutBlocks pageSize (create address size)
          (allocBlocks pageSize (create address size) sizes) := by
  intro handsOut
  have included := (handsOut 4096 4096 4096 [4096] (by decide) (by decide)
    (by decide)).included ⟨4096, 4096⟩ (by decide)
  exact absurd included (by decide)

end VirtualMemoryArea

end Nanos6.VirtualMemory
