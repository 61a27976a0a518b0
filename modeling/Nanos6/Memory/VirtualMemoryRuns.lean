import Nanos6.Memory.VirtualMemoryManagement

/-!
# Requests for the memory of the NUMA nodes

The areas stay apart and a node owns the blocks that it has been given, in every
sequence of requests.  A request is served unless it needs a mapping whose size
cannot be rounded up to whole pages: such a size becomes zero.
-/

namespace Nanos6.VirtualMemory

open Foundation

/-- What holds between requests; `blocks` have been handed out so far. -/
structure Invariant (pageSize : Nat) (management : Management)
    (blocks : List (Nat × Range)) : Prop where
  apart : Apart (rangesOf management.localNUMAVMA)
  valid : ∀ node, ∀ area ∈ management.localNUMAVMA node,
    area.IsValid pageSize
  mapped : ∀ node, ∀ range ∈ rangesOf management.localNUMAVMA node,
    ∃ allocation ∈ management.allocations, range.IsWithin allocation
  counted : ∀ node, management.localNUMAVMA node ≠ [] →
    node < management.nodeCount
  twoPages : 2 * pageSize ≤ sizeLimit
  defaultFits : management.size + pageSize ≤ sizeLimit
  inside : ∀ entry ∈ blocks, ∃ area ∈ management.localNUMAVMA entry.1,
    entry.2.IsWithin area.used
  disjoint : blocks.Pairwise fun first second => first.2.Disjoint second.2

namespace Invariant

variable {pageSize : Nat} {management : Management}
  {blocks : List (Nat × Range)}

theorem includesAddress_iff {area : VirtualMemoryArea}
    (valid : area.IsValid pageSize) (byte : Nat) :
    area.includesAddress byte = true ↔ area.range.Contains byte := by
  unfold VirtualMemoryArea.includesAddress
  rw [valid.stop, Bool.and_eq_true, decide_eq_true_iff, decide_eq_true_iff]
  exact Iff.rfl

theorem range_of_used {area : VirtualMemoryArea}
    (valid : area.IsValid pageSize) {block : Range}
    (within : block.IsWithin area.used) : block.IsWithin area.range := by
  have started := valid.started
  have rest := valid.rest
  have stop := valid.stop
  unfold Range.IsWithin Range.limit VirtualMemoryArea.used at within
  unfold Range.IsWithin Range.limit VirtualMemoryArea.range
  dsimp only at within ⊢
  omega

theorem contains_of_isWithin {inner outer : Range}
    (within : inner.IsWithin outer) {byte : Nat}
    (contains : inner.Contains byte) : outer.Contains byte :=
  ⟨within.1.trans contains.1, contains.2.trans_le within.2⟩

/-- The node of a block is found again. -/
theorem findNUMA_eq (inv : Invariant pageSize management blocks)
    {entry : Nat × Range} (member : entry ∈ blocks) {byte : Nat}
    (contains : entry.2.Contains byte) :
    management.findNUMA byte = entry.1 := by
  obtain ⟨area, inAreas, within⟩ := inv.inside entry member
  have valid := inv.valid _ area inAreas
  have inArea : area.range.Contains byte :=
    contains_of_isWithin (range_of_used valid within) contains
  have found : (management.localNUMAVMA entry.1).any
      (fun area => area.includesAddress byte) = true :=
    List.any_eq_true.mpr
      ⟨area, inAreas, (includesAddress_iff valid byte).mpr inArea⟩
  unfold Management.findNUMA
  cases searched : (List.range management.nodeCount).find? fun node =>
      (management.localNUMAVMA node).any fun area =>
        area.includesAddress byte with
  | none =>
      have absent := List.find?_eq_none.mp searched entry.1
        (List.mem_range.mpr (inv.counted _ (List.ne_nil_of_mem inAreas)))
      exact absurd found absent
  | some node =>
      have test := List.find?_some searched
      obtain ⟨other, inOthers, includes⟩ := List.any_eq_true.mp test
      have inOther := (includesAddress_iff
        (inv.valid node other inOthers) byte).mp includes
      exact inv.apart.eq_of_contains
        (List.mem_map_of_mem inOthers) (List.mem_map_of_mem inAreas)
        inOther inArea

/-- The last area of a node serves a request. -/
theorem setBack (inv : Invariant pageSize management blocks)
    (page : 0 < pageSize) {node size : Nat} (half : 2 * size < sizeLimit)
    {area : VirtualMemoryArea}
    (isLast : (management.localNUMAVMA node).getLast? = some area)
    (enough : roundUp pageSize size ≤ area.available) :
    Invariant pageSize
      (management.setBack node (area.allocBlock pageSize size).2)
      (blocks ++ [(node, ⟨area.nextFree, size⟩)]) := by
  obtain ⟨initial, areas⟩ := List.getLast?_eq_some_iff.mp isLast
  have inAreas : area ∈ management.localNUMAVMA node := by
    rw [areas]
    exact List.mem_append_right _ List.mem_cons_self
  have valid := inv.valid node area inAreas
  have validAfter := VirtualMemoryArea.isValid_allocBlock valid size
  have twoPages := inv.twoPages
  have rounded : size ≤ roundUp pageSize size :=
    le_roundUpModulo (by omega) page
  obtain ⟨after, served⟩ : ∃ after,
      (area.allocBlock pageSize size).2 = after ∧
        after.range = area.range ∧
        after.nextFree = area.nextFree + roundUp pageSize size := by
    rcases VirtualMemoryArea.allocBlock_cases valid size with
      ⟨fails, -⟩ | ⟨-, taken⟩
    · exact absurd enough (not_le.mpr fails)
    · exact ⟨_, rfl, by rw [taken]; rfl, by rw [taken]⟩
  obtain ⟨isAfter, sameRange, next⟩ := served
  rw [isAfter] at validAfter ⊢
  have changed : (management.setBack node after).localNUMAVMA =
      Function.update management.localNUMAVMA node (initial ++ [after]) := by
    unfold Management.setBack
    rw [areas, List.dropLast_concat]
  have sameRanges :
      rangesOf (management.setBack node after).localNUMAVMA =
        rangesOf management.localNUMAVMA := by
    rw [changed, rangesOf_update, List.map_append, List.map_singleton,
      sameRange, ← List.map_singleton, ← List.map_append, ← areas]
    exact Function.update_eq_self node (rangesOf management.localNUMAVMA)
  have grown : ∀ {block : Range}, block.IsWithin area.used →
      block.IsWithin after.used := by
    intro block within
    have started := valid.started
    have sameStart : after.start = area.start := congrArg Range.base sameRange
    unfold Range.IsWithin Range.limit VirtualMemoryArea.used at within ⊢
    rw [sameStart, next]
    dsimp only at within ⊢
    omega
  refine
    { apart := by rw [sameRanges]; exact inv.apart
      valid := ?_
      mapped := by rw [sameRanges]; exact inv.mapped
      counted := ?_
      twoPages := inv.twoPages
      defaultFits := inv.defaultFits
      inside := ?_
      disjoint := ?_ }
  · intro other found member
    rw [changed] at member
    rcases mem_update_concat.mp member with
      ⟨rfl, before | rfl⟩ | ⟨-, before⟩
    · refine inv.valid other found ?_
      rw [areas]
      exact List.mem_append_left _ before
    · exact validAfter
    · exact inv.valid other found before
  · intro other nonempty
    by_cases same : other = node
    · subst same
      exact inv.counted other (List.ne_nil_of_mem inAreas)
    · rw [changed, Function.update_of_ne same] at nonempty
      exact inv.counted other nonempty
  · intro entry member
    rw [changed]
    rcases List.mem_append.mp member with before | new
    · obtain ⟨found, inFound, within⟩ := inv.inside entry before
      by_cases same : entry.1 = node
      · rw [same, areas] at inFound
        rcases List.mem_append.mp inFound with earlier | isArea
        · exact ⟨found,
            mem_update_concat.mpr (Or.inl ⟨same, Or.inl earlier⟩), within⟩
        · rw [List.mem_singleton.mp isArea] at within
          exact ⟨after, mem_update_concat.mpr (Or.inl ⟨same, Or.inr rfl⟩),
            grown within⟩
      · exact ⟨found, mem_update_concat.mpr (Or.inr ⟨same, inFound⟩), within⟩
    · rw [List.mem_singleton.mp new]
      refine ⟨after, mem_update_concat.mpr (Or.inl ⟨rfl, Or.inr rfl⟩), ?_⟩
      have started := valid.started
      have sameStart : after.start = area.start :=
        congrArg Range.base sameRange
      unfold Range.IsWithin Range.limit VirtualMemoryArea.used
      rw [sameStart, next]
      dsimp only
      omega
  · refine List.pairwise_append.mpr
      ⟨inv.disjoint, List.pairwise_singleton _ _, ?_⟩
    intro entry before added new byte inEntry inNew
    rw [List.mem_singleton.mp new] at inNew
    obtain ⟨found, inFound, within⟩ := inv.inside entry before
    have inRange := contains_of_isWithin
      (range_of_used (inv.valid _ found inFound) within) inEntry
    have newInRange : area.range.Contains byte := by
      have started := valid.started
      have rest := valid.rest
      have stop := valid.stop
      unfold Range.Contains Range.limit at inNew
      unfold Range.Contains Range.limit VirtualMemoryArea.range
      dsimp only at inNew ⊢
      omega
    by_cases same : entry.1 = node
    · rw [same, areas] at inFound
      rcases List.mem_append.mp inFound with earlier | isArea
      · have pairwise := inv.apart.within node
        unfold rangesOf at pairwise
        rw [areas, List.map_append] at pairwise
        exact (List.pairwise_append.mp pairwise).2.2 found.range
          (List.mem_map_of_mem earlier) area.range
          (List.mem_map_of_mem List.mem_cons_self) byte inRange newInRange
      · -- In the same area the new block starts where the used part ends.
        rw [List.mem_singleton.mp isArea] at within
        have used := contains_of_isWithin within inEntry
        have started := valid.started
        unfold Range.Contains Range.limit at inNew used
        unfold VirtualMemoryArea.used at used
        dsimp only at inNew used
        omega
    · exact same (inv.apart.eq_of_contains (List.mem_map_of_mem inFound)
        (List.mem_map_of_mem inAreas) inRange newInRange)

/-- A request is served from a new mapping. -/
theorem addArea (inv : Invariant pageSize management blocks)
    (page : 0 < pageSize) {node size address mapped : Nat}
    (half : 2 * size < sizeLimit)
    (isNode : management.localNUMAVMA node ≠ [])
    (mapping : VirtualMemoryArea.IsMapping pageSize ⟨address, mapped⟩)
    (fresh : ∀ earlier ∈ management.allocations,
      Range.isApart ⟨address, mapped⟩ earlier = true)
    (enough : roundUp pageSize size ≤ mapped) :
    Invariant pageSize
      (management.addArea node ⟨address, mapped⟩
        ((VirtualMemoryArea.create address mapped).allocBlock pageSize
          size).2)
      (blocks ++ [(node, ⟨address, size⟩)]) := by
  have valid := VirtualMemoryArea.isValid_create mapping
  have validAfter := VirtualMemoryArea.isValid_allocBlock valid size
  have twoPages := inv.twoPages
  have rounded : size ≤ roundUp pageSize size :=
    le_roundUpModulo (by omega) page
  obtain ⟨after, served⟩ : ∃ after,
      ((VirtualMemoryArea.create address mapped).allocBlock pageSize
          size).2 = after ∧
        after.range = ⟨address, mapped⟩ ∧
        after.nextFree = address + roundUp pageSize size := by
    rcases VirtualMemoryArea.allocBlock_cases valid size with
      ⟨fails, -⟩ | ⟨-, taken⟩
    · exact absurd enough (not_le.mpr fails)
    · exact ⟨_, rfl, by rw [taken]; rfl, by rw [taken]; rfl⟩
  obtain ⟨isAfter, range, next⟩ := served
  rw [isAfter] at validAfter ⊢
  have ranges :
      rangesOf (management.addArea node ⟨address, mapped⟩
        after).localNUMAVMA =
        Function.update (rangesOf management.localNUMAVMA) node
          (rangesOf management.localNUMAVMA node ++ [⟨address, mapped⟩]) := by
    unfold Management.addArea
    rw [rangesOf_update, List.map_append, List.map_singleton, range]
    rfl
  have old : ∀ {other : Nat} {earlier : Range},
      earlier ∈ rangesOf management.localNUMAVMA other →
        earlier.Disjoint ⟨address, mapped⟩ := by
    intro other earlier member byte inEarlier inNew
    obtain ⟨allocation, inAllocations, within⟩ :=
      inv.mapped other earlier member
    exact Range.disjoint_of_isApart (fresh allocation inAllocations) byte
      inNew (contains_of_isWithin within inEarlier)
  have used : Range.IsWithin ⟨address, size⟩ after.used := by
    have start : after.start = address := congrArg Range.base range
    unfold Range.IsWithin Range.limit VirtualMemoryArea.used
    rw [start, next]
    dsimp only
    omega
  refine
    { apart := by
        rw [ranges]
        exact inv.apart.add node fun _ _ member => old member
      valid := ?_
      mapped := ?_
      counted := ?_
      twoPages := inv.twoPages
      defaultFits := inv.defaultFits
      inside := ?_
      disjoint := ?_ }
  · intro other area member
    rcases mem_update_concat.mp member with
      ⟨rfl, before | rfl⟩ | ⟨-, before⟩
    · exact inv.valid other area before
    · exact validAfter
    · exact inv.valid other area before
  · intro other found member
    have kept : found ∈ rangesOf management.localNUMAVMA other →
        ∃ allocation ∈ management.allocations ++ [⟨address, mapped⟩],
          found.IsWithin allocation := by
      intro before
      obtain ⟨allocation, inAllocations, within⟩ :=
        inv.mapped other found before
      exact ⟨allocation, List.mem_append_left _ inAllocations, within⟩
    rw [ranges] at member
    rcases mem_update_concat.mp member with
      ⟨rfl, before | rfl⟩ | ⟨-, before⟩
    · exact kept before
    · exact ⟨_, List.mem_append_right _ List.mem_cons_self, le_rfl, le_rfl⟩
    · exact kept before
  · intro other nonempty
    by_cases same : other = node
    · rw [same]
      exact inv.counted node isNode
    · refine inv.counted other fun empty => nonempty ?_
      exact (Function.update_of_ne same _ _).trans empty
  · intro entry member
    rcases List.mem_append.mp member with before | new
    · obtain ⟨found, inFound, within⟩ := inv.inside entry before
      refine ⟨found, mem_update_concat.mpr ?_, within⟩
      by_cases same : entry.1 = node
      · exact Or.inl ⟨same, Or.inl (same ▸ inFound)⟩
      · exact Or.inr ⟨same, inFound⟩
    · rw [List.mem_singleton.mp new]
      exact ⟨after, mem_update_concat.mpr (Or.inl ⟨rfl, Or.inr rfl⟩), used⟩
  · refine List.pairwise_append.mpr
      ⟨inv.disjoint, List.pairwise_singleton _ _, ?_⟩
    intro entry before added new byte inEntry inNew
    rw [List.mem_singleton.mp new] at inNew
    obtain ⟨found, inFound, within⟩ := inv.inside entry before
    have inRange := contains_of_isWithin
      (range_of_used (inv.valid _ found inFound) within) inEntry
    have newInRange := contains_of_isWithin
      (range_of_used validAfter used) inNew
    rw [range] at newInRange
    exact old (List.mem_map_of_mem inFound) byte inRange newInRange

/-- A regular request gets a mapping that is large enough. -/
theorem le_allocationSize (inv : Invariant pageSize management blocks)
    (page : 0 < pageSize) {size : Nat} (half : 2 * size < sizeLimit)
    (regular : size < management.size ∨ 2 * size + pageSize ≤ sizeLimit) :
    roundUp pageSize size ≤ management.allocationSize pageSize size := by
  have twoPages := inv.twoPages
  have defaultFits := inv.defaultFits
  refine roundUpModulo_le (by omega) page ?_ dvd_roundUpModulo
  unfold Management.allocationSize
  split
  · have rounded := le_roundUpModulo defaultFits page
    unfold roundUp
    omega
  · rw [Nat.mod_eq_of_lt half]
    have fits : 2 * size + pageSize ≤ sizeLimit := by omega
    have rounded := le_roundUpModulo fits page
    unfold roundUp
    omega

/-- The request that is not regular asks for a mapping of no page. -/
theorem allocationSize_eq_zero {size : Nat} (half : 2 * size < sizeLimit)
    (large : ¬ size < management.size)
    (wraps : ¬ 2 * size + pageSize ≤ sizeLimit) :
    management.allocationSize pageSize size = 0 := by
  unfold Management.allocationSize
  rw [if_neg large, Nat.mod_eq_of_lt half]
  exact roundUpModulo_eq_zero half (not_le.mp wraps)

theorem allocLocalNUMA (inv : Invariant pageSize management blocks)
    (page : 0 < pageSize) {request : Request}
    (half : 2 * request.size < sizeLimit)
    (isNode : management.localNUMAVMA request.numaNodeId ≠ [])
    (regular : management.IsRegular pageSize request)
    (fresh : management.Maps pageSize request →
      management.IsFresh pageSize request) :
    ∃ base after,
      management.allocLocalNUMA pageSize request = some (some base, after) ∧
        Invariant pageSize after
          (blocks ++ [(request.numaNodeId, ⟨base, request.size⟩)]) ∧
        ∀ node, management.localNUMAVMA node ≠ [] →
          after.localNUMAVMA node ≠ [] := by
  have twoPages := inv.twoPages
  have rounded : request.size ≤ roundUp pageSize request.size :=
    le_roundUpModulo (by omega) page
  obtain ⟨area, isLast⟩ : ∃ area,
      (management.localNUMAVMA request.numaNodeId).getLast? = some area :=
    ⟨_, List.getLast?_eq_some_getLast isNode⟩
  have inAreas := List.mem_of_getLast? isLast
  have valid := inv.valid _ area inAreas
  have kept : ∀ {after : List VirtualMemoryArea} {added : VirtualMemoryArea}
      {node : Nat}, management.localNUMAVMA node ≠ [] →
        Function.update management.localNUMAVMA request.numaNodeId
          (after ++ [added]) node ≠ [] := by
    intro after added node nonempty
    by_cases same : node = request.numaNodeId
    · rw [same, Function.update_self]
      simp
    · rw [Function.update_of_ne same]
      exact nonempty
  unfold Management.allocLocalNUMA
  rw [isLast]
  dsimp only
  rcases VirtualMemoryArea.allocBlock_cases valid request.size with
    ⟨fails, failed⟩ | ⟨enough, taken⟩
  · -- The last area is exhausted.
    have unfit : management.fitsArea pageSize request = false := by
      unfold Management.fitsArea
      rw [isLast, Option.any_some]
      exact decide_eq_false (not_le.mpr fails)
    have large := inv.le_allocationSize page half
      (regular.resolve_left (by rw [unfit]; decide))
    have positiveSize :
        management.allocationSize pageSize request.size ≠ 0 := by
      omega
    obtain ⟨mapping, apart⟩ := fresh ⟨unfit, positiveSize⟩
    have created := VirtualMemoryArea.isValid_create mapping
    have served :
        ((VirtualMemoryArea.create request.address
          (management.allocationSize pageSize request.size)).allocBlock
            pageSize request.size).1 = some request.address := by
      rcases VirtualMemoryArea.allocBlock_cases created request.size with
        ⟨short, -⟩ | ⟨-, taken⟩
      · exact absurd large (not_le.mpr short)
      · rw [taken]
        rfl
    rw [failed]
    dsimp only
    rw [if_neg positiveSize, served]
    exact ⟨_, _, rfl,
      inv.addArea page half isNode mapping apart large, fun _ => kept⟩
  · have after := inv.setBack page half isLast enough
    rw [taken] at after ⊢
    exact ⟨_, _, rfl, after, fun _ => kept⟩

end Invariant

/-! ### Sequences of requests -/

section Serve

variable {pageSize : Nat}

/-- A request that is not regular ends with a fatal error. -/
theorem allocLocalNUMA_eq_none {management : Management} {request : Request}
    (half : 2 * request.size < sizeLimit)
    (irregular : ¬ management.IsRegular pageSize request) :
    management.allocLocalNUMA pageSize request = none := by
  unfold Management.IsRegular at irregular
  rw [not_or, not_or, Bool.not_eq_true] at irregular
  obtain ⟨unfit, large, wraps⟩ := irregular
  unfold Management.allocLocalNUMA
  cases isLast :
      (management.localNUMAVMA request.numaNodeId).getLast? with
  | none => rfl
  | some area =>
      unfold Management.fitsArea at unfit
      rw [isLast, Option.any_some] at unfit
      have fails := not_le.mp (of_decide_eq_false unfit)
      have failed : area.allocBlock pageSize request.size = (none, area) :=
        if_pos fails
      dsimp only
      rw [failed]
      exact if_pos (Invariant.allocationSize_eq_zero half large wraps)

/-- What has been served has been returned by `allocLocalNUMA`. -/
theorem mem_serve {requests : List Request} {management : Management}
    {served : Served} (member : served ∈ (serve pageSize management
      requests).1) :
    served.request ∈ requests ∧
      (served.block.isSome = true →
        served.before.allocLocalNUMA pageSize served.request ≠ none) := by
  induction requests generalizing management with
  | nil => cases member
  | cons request requests inductionHypothesis =>
      unfold serve at member
      cases called : management.allocLocalNUMA pageSize request with
      | none =>
          rw [called] at member
          obtain rfl := List.mem_singleton.mp member
          exact ⟨List.mem_cons_self, fun impossible => by cases impossible⟩
      | some result =>
          rw [called] at member
          rcases List.mem_cons.mp member with rfl | later
          · refine ⟨List.mem_cons_self, fun _ => ?_⟩
            change management.allocLocalNUMA pageSize request ≠ none
            rw [called]
            exact Option.some_ne_none _
          · obtain ⟨inRequests, returned⟩ := inductionHypothesis later
            exact ⟨List.mem_cons_of_mem _ inRequests, returned⟩

/-- Regular requests are all served, and keep the invariant. -/
theorem serve_of_regular (page : 0 < pageSize) (requests : List Request) :
    ∀ (management : Management) (blocks : List (Nat × Range)),
      Invariant pageSize management blocks →
      (∀ request ∈ requests, 0 < request.size ∧
        2 * request.size < sizeLimit ∧
        management.localNUMAVMA request.numaNodeId ≠ []) →
      (∀ served ∈ (serve pageSize management requests).1,
        served.before.IsRegular pageSize served.request) →
      (∀ served ∈ (serve pageSize management requests).1,
        served.before.Maps pageSize served.request →
          served.before.IsFresh pageSize served.request) →
      Invariant pageSize (serve pageSize management requests).2
          (blocks ++ (serve pageSize management requests).1.filterMap
            Served.block?) ∧
        (serve pageSize management requests).1.map Served.request =
          requests ∧
        ∀ served ∈ (serve pageSize management requests).1,
          served.block.isSome = true := by
  induction requests with
  | nil =>
      intro management blocks inv _ _ _
      refine ⟨?_, rfl, fun _ impossible => by cases impossible⟩
      change Invariant pageSize management (blocks ++ [])
      rw [List.append_nil]
      exact inv
  | cons request requests inductionHypothesis =>
      intro management blocks inv typed regular fresh
      have first : ∃ served ∈ (serve pageSize management
          (request :: requests)).1,
            served.before = management ∧ served.request = request := by
        unfold serve
        cases management.allocLocalNUMA pageSize request with
        | none => exact ⟨_, List.mem_cons_self, rfl, rfl⟩
        | some result => exact ⟨_, List.mem_cons_self, rfl, rfl⟩
      obtain ⟨served, inServed, rfl, rfl⟩ := first
      obtain ⟨positive, half, isNode⟩ := typed _ List.mem_cons_self
      obtain ⟨base, after, called, invAfter, kept⟩ :=
        inv.allocLocalNUMA page half isNode
          (regular served inServed) (fresh served inServed)
      have unfolded : serve pageSize served.before
          (served.request :: requests) =
            (⟨served.before, served.request, some base⟩ ::
                (serve pageSize after requests).1,
              (serve pageSize after requests).2) := by
        rw [serve, called]
      rw [unfolded] at regular fresh ⊢
      obtain ⟨invRest, served', returned⟩ := inductionHypothesis after _
        invAfter
        (fun other member =>
          have inRest := typed other (List.mem_cons_of_mem _ member)
          ⟨inRest.1, inRest.2.1, kept _ inRest.2.2⟩)
        (fun other member => regular other (List.mem_cons_of_mem _ member))
        (fun other member => fresh other (List.mem_cons_of_mem _ member))
      refine ⟨?_, ?_, ?_⟩
      · rw [List.append_assoc] at invRest
        exact invRest
      · rw [List.map_cons, served']
      · intro other member
        rcases List.mem_cons.mp member with rfl | later
        · rfl
        · exact returned other later

end Serve

/-- The layout of the first mapping. -/
theorem laidOut_setupMemoryLayout {pageSize : Nat} {allocation : Range}
    {numaNodes : List Nat}
    (mapping : VirtualMemoryArea.IsMapping pageSize allocation)
    (some : numaNodes ≠ []) :
    LaidOut pageSize (setupMemoryLayout pageSize allocation numaNodes)
      allocation.base (allocation.base + allocation.size) := by
  have nodes : 0 < numaNodes.length := List.length_pos_iff.mpr some
  have small := Nat.mod_lt (allocation.size / pageSize) nodes
  have parts := Nat.div_add_mod (allocation.size / pageSize)
    numaNodes.length
  have total : layoutSize pageSize
      (allocation.size / pageSize / numaNodes.length * pageSize) numaNodes
      (allocation.size / pageSize % numaNodes.length) = allocation.size := by
    rw [layoutSize_eq, Nat.min_eq_left small.le, ← Nat.mul_assoc,
      ← Nat.add_mul, parts]
    exact Nat.div_mul_cancel mapping.alignedSize
  have limit : allocation.base + allocation.size < sizeLimit :=
    mapping.limit
  have started : LaidOut pageSize (fun _ => []) allocation.base
      allocation.base := by
    refine ⟨⟨fun _ => List.Pairwise.nil, ?_⟩, ?_, ?_, ?_⟩
    · intro first second _ range impossible
      cases impossible
    · intro node area impossible
      cases impossible
    · intro node range impossible
      cases impossible
    · intro byte
      constructor
      · rintro ⟨node, range, impossible, -⟩
        cases impossible
      · intro inside
        omega
  have laidOut := laidOut_layoutFrom
    (Nat.dvd_mul_left pageSize
      (allocation.size / pageSize / numaNodes.length))
    numaNodes (allocation.size / pageSize % numaNodes.length)
    allocation.base (fun _ => []) mapping.notNull le_rfl
    mapping.alignedBase (by rw [total]; exact limit) started
  rw [total] at laidOut
  exact laidOut

theorem keepsLayout_iff {pageSize : Nat} {allocation : Range}
    {numaNodes : List Nat} {requests : List Request} (page : 0 < pageSize)
    (mapping : VirtualMemoryArea.IsMapping pageSize allocation)
    (positive : 0 < allocation.size) (some : numaNodes ≠ [])
    (distinct : numaNodes.Nodup)
    (indices : ∀ node ∈ numaNodes, node < numaNodes.length)
    (typed : ∀ request ∈ requests, 0 < request.size ∧
      2 * request.size < sizeLimit ∧ request.numaNodeId ∈ numaNodes)
    (fresh : ∀ served ∈ (serve pageSize
        (initialized pageSize allocation numaNodes) requests).1,
      served.before.Maps pageSize served.request →
        served.before.IsFresh pageSize served.request) :
    KeepsLayout pageSize allocation numaNodes requests ↔
      ∀ served ∈ (serve pageSize
        (initialized pageSize allocation numaNodes) requests).1,
          served.before.IsRegular pageSize served.request := by
  constructor
  · intro keeps served member
    by_contra irregular
    obtain ⟨inRequests, returned⟩ := mem_serve member
    exact returned (keeps.returned.2 served member)
      (allocLocalNUMA_eq_none (typed _ inRequests).2.1 irregular)
  · intro regular
    have laidOut := laidOut_setupMemoryLayout mapping some
    have owned : ∀ node ∈ numaNodes, ∃ area,
        setupMemoryLayout pageSize allocation numaNodes node = [area] :=
      fun node member => layoutFrom_of_mem distinct member _ _ _
    have inv : Invariant pageSize
        (initialized pageSize allocation numaNodes) [] := by
      have limit := mapping.limit
      have first := Nat.le_of_dvd mapping.notNull mapping.alignedBase
      have size := Nat.le_of_dvd positive mapping.alignedSize
      unfold Range.limit at limit
      refine
        { apart := laidOut.apart
          valid := laidOut.valid
          mapped := ?_
          counted := ?_
          twoPages := by omega
          defaultFits := by
            change allocation.size + pageSize ≤ sizeLimit
            omega
          inside := fun _ impossible => by cases impossible
          disjoint := List.Pairwise.nil }
      · intro node range member
        exact ⟨allocation, List.mem_cons_self,
          laidOut.inside node range member⟩
      · intro node nonempty
        by_contra outside
        refine nonempty (layoutFrom_of_not_mem ?_ _ _ _)
        intro member
        exact outside (indices node member)
    obtain ⟨invAfter, all, returned⟩ := serve_of_regular page requests _ _
      inv (fun request member => by
        obtain ⟨nonempty, half, isNode⟩ := typed request member
        obtain ⟨area, alone⟩ := owned _ isNode
        refine ⟨nonempty, half, ?_⟩
        change setupMemoryLayout pageSize allocation numaNodes _ ≠ []
        rw [alone]
        exact List.cons_ne_nil _ _) regular fresh
    rw [List.nil_append] at invAfter
    exact
      { owned := owned
        covered := fun byte => (laidOut.covers byte).symm
        initiallyApart := laidOut.apart
        even := by
          intro first second area inFirst other inSecond
          have most := (size_layoutFrom numaNodes _ _ _
            (fun _ _ impossible => by cases impossible) first area
            inFirst).2
          have least := (size_layoutFrom numaNodes _ _ _
            (fun _ _ impossible => by cases impossible) second other
            inSecond).1
          exact most.trans (Nat.add_le_add_right least _)
        apart := invAfter.apart
        returned := ⟨all, returned⟩
        disjoint := invAfter.disjoint
        found := fun entry member byte contains =>
          invAfter.findNUMA_eq member contains }

/-- Two nodes with a page each; the second request of the first node gets a
mapping of its own. -/
def twoNodeRequests : List Request :=
  [⟨100, 0, 0⟩, ⟨4096, 1, 0⟩, ⟨5000, 0, 65536⟩]

theorem keepsLayout_twoNodes :
    KeepsLayout 4096 ⟨4096, 8192⟩ [0, 1] twoNodeRequests :=
  (keepsLayout_iff (by decide) (by decide) (by decide) (by decide) (by decide)
    (by decide) (by decide) (by decide)).mpr (by decide)

/-- A request of just less than half of the address space needs a mapping of no
page. -/
def largeRequest : Request :=
  ⟨2 ^ 63 - 1, 0, 0⟩

theorem keepsLayout_fails :
    ¬ ∀ (pageSize : Nat) (allocation : Range) (numaNodes : List Nat)
      (requests : List Request), 0 < pageSize →
      VirtualMemoryArea.IsMapping pageSize allocation →
      0 < allocation.size → numaNodes ≠ [] → numaNodes.Nodup →
      (∀ node ∈ numaNodes, node < numaNodes.length) →
      (∀ request ∈ requests, 0 < request.size ∧
        2 * request.size < sizeLimit ∧ request.numaNodeId ∈ numaNodes) →
      (∀ served ∈ (serve pageSize
          (initialized pageSize allocation numaNodes) requests).1,
        served.before.Maps pageSize served.request →
          served.before.IsFresh pageSize served.request) →
        KeepsLayout pageSize allocation numaNodes requests := by
  intro keeps
  have layout := keeps 4096 ⟨4096, 4096⟩ [0] [largeRequest] (by decide)
    (by decide) (by decide) (by decide) (by decide) (by decide) (by decide)
    (by decide)
  exact absurd layout.returned.2 (by decide)

end Nanos6.VirtualMemory
