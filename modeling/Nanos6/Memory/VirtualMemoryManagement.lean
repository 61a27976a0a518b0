import Mathlib.Logic.Function.Basic
import Nanos6.Memory.VirtualMemoryArea

/-!
# The memory of the NUMA nodes

The memory that the runtime maps at its start is split among the NUMA nodes in
areas of whole pages.  A node whose last area cannot serve a request gets a new
mapping of its own.  The node of an address is found by looking at all areas.

The answers of `mmap` are inputs: a request has with it the address at which the
memory is mapped, should the request need a mapping.
-/

namespace Nanos6.VirtualMemory

open Foundation

structure Management where
  /-- The size of a mapping for small requests. -/
  size : Nat
  allocations : List Range
  /-- `_localNUMAVMA`, a vector of `nodeCount` vectors. -/
  localNUMAVMA : Nat → List VirtualMemoryArea
  nodeCount : Nat

/-- The loop of `setupMemoryLayout` over the nodes that remain. -/
def layoutFrom (pageSize sizePerNUMA : Nat) :
    List Nat → Nat → Nat → (Nat → List VirtualMemoryArea) →
      Nat → List VirtualMemoryArea
  | [], _, _, areas => areas
  | node :: nodes, extraPages, ptr, areas =>
      let numaSize :=
        if 0 < extraPages then sizePerNUMA + pageSize else sizePerNUMA
      layoutFrom pageSize sizePerNUMA nodes (extraPages - 1) (ptr + numaSize)
        (Function.update areas node
          (areas node ++ [.create ptr numaSize]))

def setupMemoryLayout (pageSize : Nat) (allocation : Range)
    (numaNodes : List Nat) : Nat → List VirtualMemoryArea :=
  let localPages := allocation.size / pageSize
  let pagesPerNUMA := localPages / numaNodes.length
  let extraPages := localPages % numaNodes.length
  layoutFrom pageSize (pagesPerNUMA * pageSize) numaNodes extraPages
    allocation.base fun _ => []

/-- The end of `initialize`, with the memory that has been mapped. -/
def initialized (pageSize : Nat) (allocation : Range)
    (numaNodes : List Nat) : Management where
  size := allocation.size
  allocations := [allocation]
  localNUMAVMA := setupMemoryLayout pageSize allocation numaNodes
  nodeCount := numaNodes.length

/-- A call of `allocLocalNUMA`, with the address of a new mapping. -/
structure Request where
  size : Nat
  numaNodeId : Nat
  address : Nat
  deriving DecidableEq, Repr

namespace Management

def allocationSize (pageSize : Nat) (management : Management) (size : Nat) :
    Nat :=
  roundUp pageSize
    (if size < management.size then management.size
    else 2 * size % sizeLimit)

/-- The last area of a node is changed. -/
def setBack (management : Management) (node : Nat)
    (area : VirtualMemoryArea) : Management :=
  { management with
    localNUMAVMA :=
      Function.update management.localNUMAVMA node
        ((management.localNUMAVMA node).dropLast ++ [area]) }

/-- A node gets a new area of its own. -/
def addArea (management : Management) (node : Nat) (allocation : Range)
    (area : VirtualMemoryArea) : Management :=
  { management with
    allocations := management.allocations ++ [allocation]
    localNUMAVMA :=
      Function.update management.localNUMAVMA node
        (management.localNUMAVMA node ++ [area]) }

/-- The block and the state after the call.  None if the node has no area, or if
the mapping fails, as it does for a length of zero; that is a fatal error. -/
def allocLocalNUMA (pageSize : Nat) (management : Management)
    (request : Request) : Option (Option Nat × Management) :=
  match (management.localNUMAVMA request.numaNodeId).getLast? with
  | none => none
  | some area =>
      match area.allocBlock pageSize request.size with
      | (some block, after) =>
          some (some block, management.setBack request.numaNodeId after)
      | (none, _) =>
          let size := management.allocationSize pageSize request.size
          if size = 0 then none
          else
            let result :=
              (VirtualMemoryArea.create request.address size).allocBlock
                pageSize request.size
            some (result.1,
              management.addArea request.numaNodeId ⟨request.address, size⟩
                result.2)

def findNUMA (management : Management) (ptr : Nat) : Nat :=
  ((List.range management.nodeCount).find? fun node =>
    (management.localNUMAVMA node).any fun area =>
      area.includesAddress ptr).getD management.nodeCount

end Management

/-! ### Sequences of requests -/

/-- A request with the state before it and the block that it gets. -/
structure Served where
  before : Management
  request : Request
  block : Option Nat

/-- The requests that are served up to the end or to a fatal error, and the
state after them. -/
def serve (pageSize : Nat) : Management → List Request →
    List Served × Management
  | management, [] => ([], management)
  | management, request :: requests =>
      match management.allocLocalNUMA pageSize request with
      | none => ([⟨management, request, none⟩], management)
      | some (block, after) =>
          let rest := serve pageSize after requests
          (⟨management, request, block⟩ :: rest.1, rest.2)

/-- The memory of a request that has got some, with the node. -/
def Served.block? (served : Served) : Option (Nat × Range) :=
  served.block.map fun base =>
    (served.request.numaNodeId, ⟨base, served.request.size⟩)

namespace Management

/-- The last area of the node can serve the request. -/
def fitsArea (pageSize : Nat) (management : Management) (request : Request) :
    Bool :=
  (management.localNUMAVMA request.numaNodeId).getLast?.any
    fun area => roundUp pageSize request.size ≤ area.available

/-- The request is served from a mapping of its own. -/
def Maps (pageSize : Nat) (management : Management) (request : Request) :
    Prop :=
  management.fitsArea pageSize request = false ∧
    management.allocationSize pageSize request.size ≠ 0

instance (pageSize : Nat) (management : Management) (request : Request) :
    Decidable (management.Maps pageSize request) :=
  inferInstanceAs (Decidable (_ ∧ _))

/-- A new mapping is in pages that are not mapped yet. -/
def IsFresh (pageSize : Nat) (management : Management) (request : Request) :
    Prop :=
  let allocation : Range :=
    ⟨request.address, management.allocationSize pageSize request.size⟩
  VirtualMemoryArea.IsMapping pageSize allocation ∧
    ∀ earlier ∈ management.allocations, allocation.isApart earlier = true

instance (pageSize : Nat) (management : Management) (request : Request) :
    Decidable (management.IsFresh pageSize request) :=
  inferInstanceAs (Decidable (_ ∧ _))

/-- The size of the mapping, should one be needed, can be rounded up. -/
def IsRegular (pageSize : Nat) (management : Management)
    (request : Request) : Prop :=
  management.fitsArea pageSize request = true ∨
    request.size < management.size ∨
    2 * request.size + pageSize ≤ sizeLimit

instance (pageSize : Nat) (management : Management) (request : Request) :
    Decidable (management.IsRegular pageSize request) :=
  inferInstanceAs (Decidable (_ ∨ _ ∨ _))

end Management

/-- The memory of the areas of each node. -/
def rangesOf (areas : Nat → List VirtualMemoryArea) (node : Nat) :
    List Range :=
  (areas node).map VirtualMemoryArea.range

/-- What the layout has to be before and after a sequence of requests. -/
structure KeepsLayout (pageSize : Nat) (allocation : Range)
    (numaNodes : List Nat) (requests : List Request) : Prop where
  /-- The first areas partition the first mapping. -/
  owned : ∀ node ∈ numaNodes, ∃ area,
    (initialized pageSize allocation numaNodes).localNUMAVMA node = [area]
  covered : ∀ byte, allocation.Contains byte ↔
    ∃ node, ∃ range ∈ rangesOf
      (initialized pageSize allocation numaNodes).localNUMAVMA node,
        range.Contains byte
  initiallyApart : Apart
    (rangesOf (initialized pageSize allocation numaNodes).localNUMAVMA)
  even : ∀ first second,
    ∀ area ∈ (initialized pageSize allocation numaNodes).localNUMAVMA first,
    ∀ other ∈
      (initialized pageSize allocation numaNodes).localNUMAVMA second,
        area.size ≤ other.size + pageSize
  apart : Apart (rangesOf
    (serve pageSize (initialized pageSize allocation numaNodes)
      requests).2.localNUMAVMA)
  /-- Every request is served. -/
  returned :
    (serve pageSize (initialized pageSize allocation numaNodes)
        requests).1.map Served.request = requests ∧
      ∀ served ∈ (serve pageSize
        (initialized pageSize allocation numaNodes) requests).1,
          served.block.isSome = true
  disjoint :
    ((serve pageSize (initialized pageSize allocation numaNodes)
      requests).1.filterMap Served.block?).Pairwise
        fun first second => first.2.Disjoint second.2
  found : ∀ entry ∈ (serve pageSize
      (initialized pageSize allocation numaNodes) requests).1.filterMap
        Served.block?,
    ∀ byte, entry.2.Contains byte →
      (serve pageSize (initialized pageSize allocation numaNodes)
        requests).2.findNUMA byte = entry.1

/-! ### The first layout -/

theorem rangesOf_update (areas : Nat → List VirtualMemoryArea) (node : Nat)
    (changed : List VirtualMemoryArea) :
    rangesOf (Function.update areas node changed) =
      Function.update (rangesOf areas) node
        (changed.map VirtualMemoryArea.range) := by
  funext other
  by_cases same : other = node
  · subst same
    simp [rangesOf]
  · simp [rangesOf, same]

/-- The areas cover the memory from `base` up to `ptr`. -/
structure LaidOut (pageSize : Nat) (areas : Nat → List VirtualMemoryArea)
    (base ptr : Nat) : Prop where
  apart : Apart (rangesOf areas)
  valid : ∀ node, ∀ area ∈ areas node, area.IsValid pageSize
  inside : ∀ node, ∀ range ∈ rangesOf areas node,
    base ≤ range.base ∧ range.limit ≤ ptr
  covers : ∀ byte,
    (∃ node, ∃ range ∈ rangesOf areas node, range.Contains byte) ↔
      base ≤ byte ∧ byte < ptr

theorem LaidOut.add {pageSize base ptr size : Nat}
    {areas : Nat → List VirtualMemoryArea}
    (laidOut : LaidOut pageSize areas base ptr) (started : base ≤ ptr)
    (mapping : VirtualMemoryArea.IsMapping pageSize ⟨ptr, size⟩)
    (node : Nat) :
    LaidOut pageSize
      (Function.update areas node (areas node ++ [.create ptr size])) base
      (ptr + size) := by
  have added : rangesOf
      (Function.update areas node (areas node ++ [.create ptr size])) =
        Function.update (rangesOf areas) node
          (rangesOf areas node ++ [⟨ptr, size⟩]) := by
    rw [rangesOf_update, List.map_append]
    rfl
  refine ⟨?_, ?_, ?_, ?_⟩
  · rw [added]
    apply laidOut.apart.add
    intro other earlier member byte inEarlier inNew
    have before := ((laidOut.covers byte).mp
      ⟨other, earlier, member, inEarlier⟩).2
    exact absurd before (not_lt.mpr inNew.1)
  · intro other area member
    rcases mem_update_concat.mp member with
      ⟨rfl, before | rfl⟩ | ⟨-, before⟩
    · exact laidOut.valid other area before
    · exact VirtualMemoryArea.isValid_create mapping
    · exact laidOut.valid other area before
  · intro other range member
    rw [added] at member
    rcases mem_update_concat.mp member with
      ⟨rfl, before | rfl⟩ | ⟨-, before⟩
    · have inside := laidOut.inside other range before
      omega
    · exact ⟨started, le_rfl⟩
    · have inside := laidOut.inside other range before
      omega
  · intro byte
    rw [added]
    constructor
    · rintro ⟨other, range, member, contains⟩
      rcases mem_update_concat.mp member with
        ⟨rfl, before | rfl⟩ | ⟨-, before⟩
      · have inside := (laidOut.covers byte).mp
          ⟨other, range, before, contains⟩
        omega
      · unfold Range.Contains Range.limit at contains
        dsimp only at contains
        omega
      · have inside := (laidOut.covers byte).mp
          ⟨other, range, before, contains⟩
        omega
    · intro inside
      by_cases before : byte < ptr
      · obtain ⟨other, range, member, contains⟩ :=
          (laidOut.covers byte).mpr ⟨inside.1, before⟩
        refine ⟨other, range, mem_update_concat.mpr ?_, contains⟩
        by_cases same : other = node
        · exact Or.inl ⟨same, Or.inl (same ▸ member)⟩
        · exact Or.inr ⟨same, member⟩
      · exact ⟨node, ⟨ptr, size⟩,
          mem_update_concat.mpr (Or.inl ⟨rfl, Or.inr rfl⟩),
          not_lt.mp before, inside.2⟩

/-- The memory that the loop of `setupMemoryLayout` gives out. -/
def layoutSize (pageSize sizePerNUMA : Nat) : List Nat → Nat → Nat
  | [], _ => 0
  | _ :: nodes, extraPages =>
      (if 0 < extraPages then sizePerNUMA + pageSize else sizePerNUMA) +
        layoutSize pageSize sizePerNUMA nodes (extraPages - 1)

theorem layoutSize_eq (pageSize sizePerNUMA : Nat) (nodes : List Nat)
    (extraPages : Nat) :
    layoutSize pageSize sizePerNUMA nodes extraPages =
      nodes.length * sizePerNUMA + min extraPages nodes.length * pageSize := by
  induction nodes generalizing extraPages with
  | nil => simp [layoutSize]
  | cons node nodes inductionHypothesis =>
      rw [layoutSize, inductionHypothesis, List.length_cons, Nat.succ_mul]
      by_cases extra : 0 < extraPages
      · obtain ⟨fewer, rfl⟩ := Nat.exists_eq_add_one.mpr extra
        rw [if_pos extra, Nat.add_sub_cancel, Nat.add_min_add_right,
          Nat.succ_mul]
        omega
      · have none : extraPages = 0 := by omega
        subst none
        simp only [lt_irrefl, if_false, Nat.zero_sub, Nat.zero_min,
          Nat.zero_mul]
        omega

theorem laidOut_layoutFrom {pageSize sizePerNUMA base : Nat}
    (whole : pageSize ∣ sizePerNUMA) (nodes : List Nat) :
    ∀ (extraPages ptr : Nat) (areas : Nat → List VirtualMemoryArea),
      0 < base → base ≤ ptr → pageSize ∣ ptr →
      ptr + layoutSize pageSize sizePerNUMA nodes extraPages < sizeLimit →
      LaidOut pageSize areas base ptr →
        LaidOut pageSize
          (layoutFrom pageSize sizePerNUMA nodes extraPages ptr areas) base
          (ptr + layoutSize pageSize sizePerNUMA nodes extraPages) := by
  induction nodes with
  | nil =>
      intro extraPages ptr areas _ _ _ _ laidOut
      exact laidOut
  | cons node nodes inductionHypothesis =>
      intro extraPages ptr areas notNull started aligned limit laidOut
      rw [layoutSize] at limit ⊢
      rw [layoutFrom]
      generalize numaSize :
        (if 0 < extraPages then sizePerNUMA + pageSize
          else sizePerNUMA) = size at limit ⊢
      have wholeSize : pageSize ∣ size := by
        rw [← numaSize]
        split
        · exact Nat.dvd_add whole (Nat.dvd_refl _)
        · exact whole
      rw [← Nat.add_assoc] at limit ⊢
      refine inductionHypothesis (extraPages - 1) (ptr + size) _ notNull
        (by omega) (Nat.dvd_add aligned wholeSize) limit ?_
      refine laidOut.add started ?_ node
      exact
        { notNull := lt_of_lt_of_le notNull started
          limit := lt_of_le_of_lt (Nat.le_add_right _ _) limit
          alignedBase := aligned
          alignedSize := wholeSize }

theorem layoutFrom_of_not_mem {pageSize sizePerNUMA node : Nat}
    {nodes : List Nat} (absent : node ∉ nodes) :
    ∀ (extraPages ptr : Nat) (areas : Nat → List VirtualMemoryArea),
      layoutFrom pageSize sizePerNUMA nodes extraPages ptr areas node =
        areas node := by
  induction nodes with
  | nil => exact fun _ _ _ => rfl
  | cons first nodes inductionHypothesis =>
      intro extraPages ptr areas
      rw [List.mem_cons, not_or] at absent
      obtain ⟨differ, later⟩ := absent
      rw [layoutFrom, inductionHypothesis later, Function.update_of_ne differ]

theorem layoutFrom_of_mem {pageSize sizePerNUMA node : Nat}
    {nodes : List Nat} (distinct : nodes.Nodup) (member : node ∈ nodes) :
    ∀ (extraPages ptr : Nat) (areas : Nat → List VirtualMemoryArea),
      ∃ area,
        layoutFrom pageSize sizePerNUMA nodes extraPages ptr areas node =
          areas node ++ [area] := by
  induction nodes with
  | nil => cases member
  | cons first nodes inductionHypothesis =>
      intro extraPages ptr areas
      obtain ⟨absent, later⟩ := List.nodup_cons.mp distinct
      rw [layoutFrom]
      rcases List.mem_cons.mp member with rfl | inNodes
      · rw [layoutFrom_of_not_mem absent, Function.update_self]
        exact ⟨_, rfl⟩
      · obtain ⟨area, laidOut⟩ := inductionHypothesis later inNodes
          (extraPages - 1) _ _
        have differ : node ≠ first := by
          rintro rfl
          exact absent inNodes
        refine ⟨area, ?_⟩
        rw [laidOut, Function.update_of_ne differ]

/-- Every area has as many pages as the others, or one more. -/
theorem size_layoutFrom {pageSize sizePerNUMA : Nat} (nodes : List Nat) :
    ∀ (extraPages ptr : Nat) (areas : Nat → List VirtualMemoryArea),
      (∀ node, ∀ area ∈ areas node,
        sizePerNUMA ≤ area.size ∧ area.size ≤ sizePerNUMA + pageSize) →
      ∀ node, ∀ area ∈
        layoutFrom pageSize sizePerNUMA nodes extraPages ptr areas node,
          sizePerNUMA ≤ area.size ∧
            area.size ≤ sizePerNUMA + pageSize := by
  induction nodes with
  | nil => exact fun _ _ _ even => even
  | cons first nodes inductionHypothesis =>
      intro extraPages ptr areas even
      apply inductionHypothesis
      intro node area member
      rcases mem_update_concat.mp member with
        ⟨rfl, before | rfl⟩ | ⟨-, before⟩
      · exact even node area before
      · change sizePerNUMA ≤ ite _ _ _ ∧ ite _ _ _ ≤ sizePerNUMA + pageSize
        split
        · exact ⟨Nat.le_add_right _ _, le_rfl⟩
        · exact ⟨le_rfl, Nat.le_add_right _ _⟩
      · exact even node area before

end Nanos6.VirtualMemory
