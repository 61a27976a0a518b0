import Nanos6.Regions.RegionMap

/-!
# Fragmentation

A node is fragmented by a region that it meets: the node keeps the intersection,
or is erased, and copies of it are inserted for what is left on both sides.  The
order is intersection, left, right, so the key of the node grows in place before
the copy with the smaller key is inserted.
-/

namespace Nanos6.Regions

open Foundation

universe u v

variable {α : Type u}

/-- The callbacks of a fragmentation: a copy of the contents, and what is done to
each fragment after it has been set up, with the contents of the original. -/
structure Lambdas (α : Type u) where
  duplicator : α → α
  postprocessor : α → α → α

/-- The callbacks are run for the intersection, for what is left of it and for
what is right of it. -/
def DataAccessRegion.processIntersectingFragments {σ : Type v}
    (region fragmenterRegion : Interval)
    (thisOnlyProcessor intersectingProcessor otherOnlyProcessor :
      Interval → σ → σ) (state : σ) : Option σ :=
  let intersectionStart := max region.start fragmenterRegion.start
  let intersectionEnd := min region.stop fragmenterRegion.stop
  if intersectionStart < intersectionEnd then
    let state :=
      intersectingProcessor ⟨intersectionStart, intersectionEnd⟩ state
    let state :=
      if region.start < intersectionStart then
        thisOnlyProcessor ⟨region.start, intersectionStart⟩ state
      else if fragmenterRegion.start < intersectionStart then
        otherOnlyProcessor ⟨fragmenterRegion.start, intersectionStart⟩ state
      else state
    some
      (if intersectionEnd < region.stop then
        thisOnlyProcessor ⟨intersectionEnd, region.stop⟩ state
      else if intersectionEnd < fragmenterRegion.stop then
        otherOnlyProcessor ⟨intersectionEnd, fragmenterRegion.stop⟩ state
      else state)
  else none

/-- The variables of `fragmentByIntersection`; the object keeps its contents when
it is erased. -/
structure Fragmenting (α : Type u) where
  map : RegionMap α
  contents : α
  intersectionPosition : Iterator
  alreadyShrinked : Bool

namespace Fragmenting

/-- The region of the node is set. -/
def shrink (lambdas : Lambdas α) (position : Nat) (region : Interval)
    (state : Fragmenting α) : Fragmenting α :=
  let contents := lambdas.postprocessor state.contents state.contents
  { state with
    map := state.map.modify position fun node =>
      { node with region := region, contents := contents }
    contents := contents
    alreadyShrinked := true }

/-- A copy of the node is inserted. -/
def duplicate (lambdas : Lambdas α) (region : Interval)
    (state : Fragmenting α) : Fragmenting α :=
  { state with
    map := state.map.insert region
      (lambdas.postprocessor (lambdas.duplicator state.contents)
        state.contents) }

def originalRegionOnly (lambdas : Lambdas α) (position : Nat)
    (region : Interval) (state : Fragmenting α) : Fragmenting α :=
  if !state.alreadyShrinked then state.shrink lambdas position region
  else state.duplicate lambdas region

def intersection (lambdas : Lambdas α) (position : Nat)
    (removeIntersection : Bool) (region : Interval)
    (state : Fragmenting α) : Fragmenting α :=
  if !removeIntersection then
    if !state.alreadyShrinked then
      { state.shrink lambdas position region with
        intersectionPosition := some position }
    else
      let state := state.duplicate lambdas region
      { state with
        intersectionPosition := state.map.lowerBound region.start }
  else if !state.alreadyShrinked then
    { state with
      map := state.map.erase position
      alreadyShrinked := true }
  else state

end Fragmenting

namespace RegionMap

/-- The map with an iterator to the intersection, which is the end if the
intersection is removed. -/
def fragmentByIntersection (lambdas : Lambdas α) (map : RegionMap α)
    (position : Nat) (fragmenterRegion : Interval)
    (removeIntersection : Bool) : Option (RegionMap α × Iterator) :=
  (map.node position).bind fun original =>
    (DataAccessRegion.processIntersectingFragments original.region
      fragmenterRegion
      (Fragmenting.originalRegionOnly lambdas position)
      (Fragmenting.intersection lambdas position removeIntersection)
      (fun _ state => state)
      ⟨map, original.contents, none, false⟩).map fun state =>
        (state.map, state.intersectionPosition)

def fragmentIntersecting (lambdas : Lambdas α) (region : Interval)
    (map : RegionMap α) : Option (RegionMap α) :=
  (processIntersecting
    (fun (_ : Unit) map position =>
      (fragmentByIntersection lambdas map position region false).map
        fun result => ((), result.1, true)) region () map).map
    Traversal.map

end RegionMap

theorem DataAccessRegion.fullyContainedIn_inter {region other : Interval}
    (meets : region.Meets other) :
    fullyContainedIn (region.inter other) other = true := by
  have bounds : max region.start other.start <
      min region.stop other.stop := meets
  have again : (region.inter other).Meets other := by
    unfold Interval.Meets Interval.Nonempty
    dsimp only [Interval.inter]
    omega
  have same : (region.inter other).inter other = region.inter other := by
    unfold Interval.inter
    rw [Interval.mk.injEq]
    dsimp only
    omega
  rw [fullyContainedIn, beq_iff_eq, intersect_of_meets again, same]

theorem DataAccessRegion.processIntersectingFragments_eq {σ : Type v}
    {region other : Interval} (meets : region.Meets other)
    (thisOnly intersecting : Interval → σ → σ) (state : σ) :
    processIntersectingFragments region other thisOnly intersecting
        (fun _ state => state) state =
      let middle := region.inter other
      let shrinked := intersecting middle state
      let left :=
        if region.start < middle.start then
          thisOnly ⟨region.start, middle.start⟩ shrinked
        else shrinked
      some
        (if middle.stop < region.stop then
          thisOnly ⟨middle.stop, region.stop⟩ left
        else left) := by
  have bounds : max region.start other.start <
      min region.stop other.stop := meets
  unfold processIntersectingFragments
  dsimp only
  rw [if_pos bounds]
  simp only [ite_self]
  rfl

/-! ### The tree order -/

namespace Node

/-- A node goes between those with smaller and those with larger keys. -/
theorem insertNode_between {new : Node α} {before after : List (Node α)}
    (smaller : ∀ node ∈ before, node.region.start < new.region.start)
    (larger : ∀ node ∈ after, new.region.start < node.region.start) :
    insertNode new (before ++ after) = before ++ new :: after := by
  induction before with
  | nil =>
      cases after with
      | nil => rfl
      | cons first rest =>
          have next := larger first List.mem_cons_self
          rw [List.nil_append, insertNode, if_neg (by omega), if_pos next,
            List.nil_append]
  | cons first rest inductionHypothesis =>
      obtain ⟨here, later⟩ := List.forall_mem_cons.mp smaller
      rw [List.cons_append, insertNode, if_pos here,
        inductionHypothesis later, List.cons_append]

end Node

namespace RegionMap

variable {map : RegionMap α} {before after : List (Node α)}
  {node : Node α}

theorem id_ne (valid : map.Valid)
    (parts : map.nodes = before ++ node :: after) :
    ∀ other ∈ before ++ after, other.id ≠ node.id := by
  have distinct := valid.distinct
  rw [parts, (List.perm_middle.map Node.id).nodup_iff, List.map_cons,
    List.nodup_cons] at distinct
  intro other member same
  apply distinct.1
  rw [← same]
  exact List.mem_map_of_mem member

theorem modify_eq (valid : map.Valid)
    (parts : map.nodes = before ++ node :: after)
    (change : Node α → Node α) :
    map.modify node.id change =
      ⟨before ++ change node :: after, map.created⟩ := by
  have others := id_ne valid parts
  have kept : ∀ nodes : List (Node α),
      (∀ other ∈ nodes, other.id ≠ node.id) →
        nodes.map (fun other =>
          if other.id = node.id then change other else other) = nodes := by
    intro nodes apart
    refine (List.map_congr_left fun other member => ?_).trans
      (List.map_id nodes)
    exact if_neg (apart other member)
  unfold modify
  rw [parts, List.map_append, List.map_cons, if_pos rfl,
    kept before fun other member =>
      others other (List.mem_append_left _ member),
    kept after fun other member =>
      others other (List.mem_append_right _ member)]

theorem erase_eq (valid : map.Valid)
    (parts : map.nodes = before ++ node :: after) :
    map.erase node.id = ⟨before ++ after, map.created⟩ := by
  have others := id_ne valid parts
  have kept : ∀ nodes : List (Node α),
      (∀ other ∈ nodes, other.id ≠ node.id) →
        nodes.filter (fun other => other.id != node.id) = nodes :=
    fun nodes apart => List.filter_eq_self.mpr fun other member =>
      bne_iff_ne.mpr (apart other member)
  unfold erase
  rw [parts, List.filter_append, List.filter_cons_of_neg (by simp),
    kept before fun other member =>
      others other (List.mem_append_left _ member),
    kept after fun other member =>
      others other (List.mem_append_right _ member)]

end RegionMap

/-! ### The fragments of a node -/

namespace Node

/-- The fragments on one side of the intersection. -/
def side (id : Nat) (start stop : Nat) (contents : α) : List (Node α) :=
  if start < stop then [⟨id, ⟨start, stop⟩, contents⟩] else []

/-- The contents of the node that keeps the intersection. -/
def keptContents (lambdas : Lambdas α) (node : Node α)
    (removeIntersection : Bool) : α :=
  if removeIntersection then node.contents
  else lambdas.postprocessor node.contents node.contents

/-- The contents of the copies. -/
def copiedContents (lambdas : Lambdas α) (node : Node α)
    (removeIntersection : Bool) : α :=
  let contents := keptContents lambdas node removeIntersection
  lambdas.postprocessor (lambdas.duplicator contents) contents

def leftFragment (lambdas : Lambdas α) (node : Node α) (region : Interval)
    (removeIntersection : Bool) (created : Nat) : List (Node α) :=
  side created node.region.start (node.region.inter region).start
    (copiedContents lambdas node removeIntersection)

def middleFragment (lambdas : Lambdas α) (node : Node α) (region : Interval)
    (removeIntersection : Bool) : List (Node α) :=
  if removeIntersection then []
  else [⟨node.id, node.region.inter region,
    keptContents lambdas node removeIntersection⟩]

def rightFragment (lambdas : Lambdas α) (node : Node α) (region : Interval)
    (removeIntersection : Bool) (created : Nat) : List (Node α) :=
  side
    (created + (node.leftFragment lambdas region removeIntersection
      created).length)
    (node.region.inter region).stop node.region.stop
    (copiedContents lambdas node removeIntersection)

def fragments (lambdas : Lambdas α) (node : Node α) (region : Interval)
    (removeIntersection : Bool) (created : Nat) : List (Node α) :=
  node.leftFragment lambdas region removeIntersection created ++
    node.middleFragment lambdas region removeIntersection ++
    node.rightFragment lambdas region removeIntersection created

/-- The number of copies that are created. -/
def copies (lambdas : Lambdas α) (node : Node α) (region : Interval)
    (removeIntersection : Bool) (created : Nat) : Nat :=
  (node.leftFragment lambdas region removeIntersection created).length +
    (node.rightFragment lambdas region removeIntersection created).length

end Node

/-- A copy for one side is inserted between the nodes with smaller and larger
keys. -/
theorem Fragmenting.side_eq {lambdas : Lambdas α} {position start stop : Nat}
    {contents copy : α} {found : Iterator} {before after : List (Node α)}
    (created : Nat)
    (copied : lambdas.postprocessor (lambdas.duplicator contents) contents =
      copy)
    (smaller : start < stop → ∀ node ∈ before, node.region.start < start)
    (larger : start < stop → ∀ node ∈ after, start < node.region.start) :
    (if start < stop then
      originalRegionOnly lambdas position ⟨start, stop⟩
        ⟨⟨before ++ after, created⟩, contents, found, true⟩
    else ⟨⟨before ++ after, created⟩, contents, found, true⟩) =
      ⟨⟨before ++ (Node.side created start stop copy ++ after),
        created + (Node.side created start stop copy).length⟩,
        contents, found, true⟩ := by
  unfold Node.side
  split
  · rename_i below
    have inserted : Node.insertNode ⟨created, ⟨start, stop⟩, copy⟩
        (before ++ after) = before ++ ⟨created, ⟨start, stop⟩, copy⟩ :: after :=
      Node.insertNode_between (smaller below) (larger below)
    unfold originalRegionOnly duplicate RegionMap.insert
    dsimp only
    rw [copied, inserted]
    rfl
  · rfl

namespace RegionMap

variable {map : RegionMap α} {before after : List (Node α)}
  {node : Node α}

/-- The nodes before and after a node have smaller and larger keys. -/
theorem start_lt (valid : map.Valid)
    (parts : map.nodes = before ++ node :: after) :
    (∀ other ∈ before, other.region.start < node.region.start) ∧
      ∀ other ∈ after, node.region.stop ≤ other.region.start := by
  obtain ⟨earlier, later⟩ := stop_le valid parts
  refine ⟨fun other member => ?_, later⟩
  have nonempty := valid.nonempty other (by
    rw [parts]
    exact List.mem_append_left _ member)
  exact Nat.lt_of_lt_of_le nonempty (earlier other member)

section Fragments

variable {lambdas : Lambdas α} {removeIntersection : Bool}
  {region : Interval}

theorem mem_side {id start stop : Nat} {contents : α} {other : Node α}
    (member : other ∈ Node.side id start stop contents) :
    start < stop ∧ other = ⟨id, ⟨start, stop⟩, contents⟩ := by
  unfold Node.side at member
  split at member
  · exact ⟨‹_›, List.mem_singleton.mp member⟩
  · cases member

theorem mem_middleFragment {other : Node α}
    (member : other ∈ node.middleFragment lambdas region
      removeIntersection) :
    removeIntersection = false ∧ other = ⟨node.id,
      node.region.inter region,
      node.keptContents lambdas removeIntersection⟩ := by
  unfold Node.middleFragment at member
  split at member
  · cases member
  · exact ⟨Bool.eq_false_iff.mpr ‹_›, List.mem_singleton.mp member⟩

/-- The node is shrinked to the intersection, or erased. -/
theorem intersection_eq (valid : map.Valid)
    (parts : map.nodes = before ++ node :: after) :
    Fragmenting.intersection lambdas node.id removeIntersection
        (node.region.inter region) ⟨map, node.contents, none, false⟩ =
      ⟨⟨before ++ (node.middleFragment lambdas region removeIntersection ++
          after), map.created⟩,
        node.keptContents lambdas removeIntersection,
        if removeIntersection then none else some node.id, true⟩ := by
  unfold Fragmenting.intersection
  cases removeIntersection with
  | true =>
      rw [erase_eq valid parts]
      rfl
  | false =>
      unfold Fragmenting.shrink
      dsimp only
      rw [modify_eq valid parts]
      rfl

end Fragments

/-- The node is replaced by its fragments, in order. -/
theorem fragmentByIntersection_eq (lambdas : Lambdas α)
    (removeIntersection : Bool) {region : Interval} (valid : map.Valid)
    (parts : map.nodes = before ++ node :: after)
    (meets : node.region.Meets region) :
    map.fragmentByIntersection lambdas node.id region removeIntersection =
      some (⟨before ++ node.fragments lambdas region removeIntersection
          map.created ++ after, map.created + node.copies lambdas region
            removeIntersection map.created⟩,
        if removeIntersection then none else some node.id) := by
  obtain ⟨smaller, larger⟩ := start_lt valid parts
  have bounds : (node.region.inter region).start <
      (node.region.inter region).stop := meets
  have first : node.region.start ≤ (node.region.inter region).start :=
    Nat.le_max_left _ _
  have last : (node.region.inter region).stop ≤ node.region.stop :=
    Nat.min_le_left _ _
  rw [fragmentByIntersection, node_eq valid parts, Option.bind_some,
    DataAccessRegion.processIntersectingFragments_eq meets]
  dsimp only
  rw [intersection_eq valid parts, Fragmenting.side_eq map.created rfl
    (fun _ => smaller)]
  · rw [← List.append_assoc, ← List.append_assoc,
      Fragmenting.side_eq _ rfl]
    · unfold Node.fragments Node.copies
      simp only [List.append_assoc, Nat.add_assoc]
      rfl
    · intro below other member
      rcases List.mem_append.mp member with inRest | inMiddle
      · rcases List.mem_append.mp inRest with inBefore | inLeft
        · have earlier := smaller other inBefore
          omega
        · rw [(mem_side inLeft).2]
          dsimp only
          omega
      · rw [(mem_middleFragment inMiddle).2]
        exact bounds
    · intro below other member
      have later := larger other member
      omega
  · intro below other member
    rcases List.mem_append.mp member with inMiddle | inAfter
    · rw [(mem_middleFragment inMiddle).2]
      exact below
    · have later := larger other inAfter
      omega

/-! ### The map stays valid -/

/-- Nodes that may take the place of a node: they are in its region and have its
number or new ones. -/
structure Replacement (node : Node α) (created later : Nat)
    (pieces : List (Node α)) : Prop where
  nonempty : ∀ piece ∈ pieces, piece.region.Nonempty
  within : ∀ piece ∈ pieces, node.region.start ≤ piece.region.start ∧
    piece.region.stop ≤ node.region.stop
  ordered : pieces.Pairwise fun first second =>
    first.region.stop ≤ second.region.start
  distinct : (pieces.map Node.id).Nodup
  known : ∀ piece ∈ pieces, piece.id = node.id ∨
    created ≤ piece.id ∧ piece.id < later

theorem valid_of_replacement {pieces : List (Node α)} {later : Nat}
    (valid : map.Valid) (parts : map.nodes = before ++ node :: after)
    (replacement : Replacement node map.created later pieces)
    (grows : map.created ≤ later) :
    Valid ⟨before ++ pieces ++ after, later⟩ := by
  obtain ⟨earlier, follows⟩ := stop_le valid parts
  have others := id_ne valid parts
  have nonempty := valid.nonempty
  have ordered := valid.ordered
  have distinct := valid.distinct
  have fresh := valid.fresh
  rw [parts] at nonempty fresh ordered distinct
  have inParts : ∀ {other}, other ∈ before ++ after →
      other ∈ before ++ node :: after := by
    intro other member
    rcases List.mem_append.mp member with inBefore | inAfter
    · exact List.mem_append_left _ inBefore
    · exact List.mem_append_right _ (List.mem_cons_of_mem _ inAfter)
  have cases : ∀ {other}, other ∈ before ++ pieces ++ after →
      other ∈ before ++ after ∨ other ∈ pieces := by
    intro other member
    rcases List.mem_append.mp member with inRest | inAfter
    · rcases List.mem_append.mp inRest with inBefore | inPieces
      · exact Or.inl (List.mem_append_left _ inBefore)
      · exact Or.inr inPieces
    · exact Or.inl (List.mem_append_right _ inAfter)
  refine ⟨?_, ?_, ?_, ?_⟩
  · intro other member
    rcases cases member with inOthers | inPieces
    · exact nonempty other (inParts inOthers)
    · exact replacement.nonempty other inPieces
  · rw [List.pairwise_append, List.pairwise_cons] at ordered
    obtain ⟨orderedBefore, ⟨-, orderedAfter⟩, across⟩ := ordered
    rw [List.pairwise_append, List.pairwise_append]
    refine ⟨⟨orderedBefore, replacement.ordered, ?_⟩, orderedAfter, ?_⟩
    · intro first inBefore second inPieces
      exact Nat.le_trans (earlier first inBefore)
        (replacement.within second inPieces).1
    · intro first inFirst second inAfter
      rcases List.mem_append.mp inFirst with inBefore | inPieces
      · exact across first inBefore second (List.mem_cons_of_mem _ inAfter)
      · exact Nat.le_trans (replacement.within first inPieces).2
          (follows second inAfter)
  · have moved : (before ++ pieces ++ after).Perm
        (pieces ++ (before ++ after)) := by
      rw [← List.append_assoc]
      exact List.perm_append_comm.append_right after
    rw [(List.perm_middle.map Node.id).nodup_iff, List.map_cons,
      List.nodup_cons] at distinct
    rw [(moved.map Node.id).nodup_iff, List.map_append,
      List.nodup_append]
    refine ⟨replacement.distinct, distinct.2, ?_⟩
    intro first inFirst second inSecond same
    obtain ⟨piece, inPieces, rfl⟩ := List.mem_map.mp inFirst
    obtain ⟨other, inOthers, rfl⟩ := List.mem_map.mp inSecond
    rcases replacement.known piece inPieces with ofNode | ⟨isNew, -⟩
    · exact others other inOthers (same.symm.trans ofNode)
    · have old := fresh other (inParts inOthers)
      omega
  · intro other member
    rcases cases member with inOthers | inPieces
    · exact Nat.lt_of_lt_of_le (fresh other (inParts inOthers)) grows
    · rcases replacement.known other inPieces with same | ⟨-, below⟩
      · rw [same]
        exact Nat.lt_of_lt_of_le (fresh node
          (List.mem_append_right _ List.mem_cons_self)) grows
      · exact below

section Fragments

variable {lambdas : Lambdas α} {removeIntersection : Bool}
  {region : Interval}

theorem mem_fragments {created : Nat} {piece : Node α}
    (member : piece ∈ node.fragments lambdas region removeIntersection
      created) :
    piece ∈ node.leftFragment lambdas region removeIntersection created ∨
      piece ∈ node.middleFragment lambdas region removeIntersection ∨
      piece ∈ node.rightFragment lambdas region removeIntersection
        created := by
  rcases List.mem_append.mp member with inRest | inRight
  · rcases List.mem_append.mp inRest with inLeft | inMiddle
    · exact Or.inl inLeft
    · exact Or.inr (Or.inl inMiddle)
  · exact Or.inr (Or.inr inRight)

theorem replacement_fragments (meets : node.region.Meets region)
    {created : Nat} (fresh : node.id < created) :
    Replacement node created (created + node.copies lambdas region
        removeIntersection created)
      (node.fragments lambdas region removeIntersection created) := by
  have bounds : (node.region.inter region).start <
      (node.region.inter region).stop := meets
  have first : node.region.start ≤ (node.region.inter region).start :=
    Nat.le_max_left _ _
  have last : (node.region.inter region).stop ≤ node.region.stop :=
    Nat.min_le_left _ _
  unfold Node.copies Node.fragments Node.rightFragment Node.middleFragment
    Node.leftFragment Node.side
  cases removeIntersection <;> split <;> split <;> constructor <;>
    simp [Interval.Nonempty] <;> omega

end Fragments

/-! ### The contents of each byte -/

/-- What the nodes that hold a byte have as contents, as far as `value` tells. -/
def valuesIn {β : Type v} (value : α → β) (nodes : List (Node α))
    (byte : Nat) : List β :=
  (nodes.filter fun node => decide (byte ∈ node.region)).map fun node =>
    value node.contents

/-- A valid map has at most one value for each byte. -/
def valuesAt {β : Type v} (value : α → β) (map : RegionMap α)
    (byte : Nat) : List β :=
  valuesIn value map.nodes byte

section Values

variable {β : Type v} {value : α → β} {lambdas : Lambdas α}
  {removeIntersection : Bool} {region : Interval}

theorem valuesIn_append (first second : List (Node α)) (byte : Nat) :
    valuesIn value (first ++ second) byte =
      valuesIn value first byte ++ valuesIn value second byte := by
  unfold valuesIn
  rw [List.filter_append, List.map_append]

theorem valuesIn_singleton (node : Node α) (byte : Nat) :
    valuesIn value [node] byte =
      if byte ∈ node.region then [value node.contents] else [] := by
  unfold valuesIn
  rw [List.filter_singleton]
  by_cases inside : byte ∈ node.region
  · rw [if_pos inside, decide_eq_true inside]
    rfl
  · rw [if_neg inside, decide_eq_false inside]
    rfl

theorem valuesIn_side (id start stop : Nat) (contents : α) (byte : Nat) :
    valuesIn value (Node.side id start stop contents) byte =
      if start ≤ byte ∧ byte < stop then [value contents] else [] := by
  unfold Node.side
  split
  · exact valuesIn_singleton _ byte
  · rw [if_neg (by omega)]
    rfl

/-- Each byte of the node is in one fragment, unless it is removed. -/
theorem valuesIn_fragments (meets : node.region.Meets region)
    (copies : ∀ contents, value (lambdas.duplicator contents) =
      value contents)
    (kept : ∀ fragment original,
      value (lambdas.postprocessor fragment original) = value fragment)
    (created byte : Nat) :
    valuesIn value (node.fragments lambdas region removeIntersection created)
        byte =
      if removeIntersection = true ∧ byte ∈ region then []
      else valuesIn value [node] byte := by
  have bounds : (node.region.inter region).start <
      (node.region.inter region).stop := meets
  have first : node.region.start ≤ (node.region.inter region).start :=
    Nat.le_max_left _ _
  have last : (node.region.inter region).stop ≤ node.region.stop :=
    Nat.min_le_left _ _
  have keptValue : value (node.keptContents lambdas removeIntersection) =
      value node.contents := by
    unfold Node.keptContents
    split
    · rfl
    · exact kept _ _
  have copiedValue : value (node.copiedContents lambdas
      removeIntersection) = value node.contents := by
    unfold Node.copiedContents
    rw [kept, copies, keptValue]
  have middle : valuesIn value (node.middleFragment lambdas region
      removeIntersection) byte =
        if removeIntersection = false ∧ byte ∈ node.region.inter region then
          [value node.contents] else [] := by
    unfold Node.middleFragment
    cases removeIntersection with
    | true => rfl
    | false =>
        rw [if_neg Bool.false_ne_true, valuesIn_singleton, keptValue]
        simp
  unfold Node.fragments Node.leftFragment Node.rightFragment
  rw [valuesIn_append, valuesIn_append, valuesIn_side, valuesIn_side,
    copiedValue, middle, valuesIn_singleton]
  have start : (node.region.inter region).start =
      max node.region.start region.start := rfl
  have stop : (node.region.inter region).stop =
      min node.region.stop region.stop := rfl
  simp only [Interval.mem_iff]
  -- The byte is before, left of, in, right of or behind the intersection.
  by_cases outside : byte < node.region.start ∨ node.region.stop ≤ byte
  · rw [if_neg (show ¬ (node.region.start ≤ byte ∧
      byte < node.region.stop) by omega), ite_self, if_neg (by omega),
      if_neg (by omega), if_neg (by omega)]
    rfl
  · rw [if_pos (show node.region.start ≤ byte ∧
      byte < node.region.stop by omega)]
    by_cases left : byte < (node.region.inter region).start
    · rw [if_pos (by omega), if_neg (by omega), if_neg (by omega),
        if_neg (by omega)]
      rfl
    · by_cases right : (node.region.inter region).stop ≤ byte
      · rw [if_neg (by omega), if_neg (by omega), if_pos (by omega),
          if_neg (by omega)]
        rfl
      · rw [if_neg (by omega)]
        cases removeIntersection with
        | true =>
            rw [if_neg (by simp), if_neg (by omega),
              if_pos ⟨rfl, by omega⟩]
            rfl
        | false =>
            rw [if_pos ⟨rfl, by omega⟩, if_neg (by omega),
              if_neg (by simp)]
            rfl

/-- A fragment lies in the region or outside of it. -/
theorem fragments_apart (meets : node.region.Meets region) {created : Nat}
    {piece : Node α} (member : piece ∈ node.fragments lambdas region
      removeIntersection created) :
    DataAccessRegion.fullyContainedIn piece.region region = true ∨
      ¬ piece.region.Meets region := by
  rcases mem_fragments member with inLeft | inMiddle | inRight
  · obtain ⟨below, rfl⟩ := mem_side inLeft
    right
    apply not_meets_of_before
    dsimp only [Interval.inter] at below ⊢
    omega
  · obtain ⟨-, rfl⟩ := mem_middleFragment inMiddle
    left
    exact DataAccessRegion.fullyContainedIn_inter meets
  · obtain ⟨below, rfl⟩ := mem_side inRight
    right
    apply not_meets_of_after
    dsimp only [Interval.inter] at below ⊢
    omega

/-- A byte of a node is in no other node. -/
theorem valuesIn_outside (value : α → β) (valid : map.Valid)
    (parts : map.nodes = before ++ node :: after) {byte : Nat}
    (inside : byte ∈ node.region) :
    valuesIn value before byte = [] ∧ valuesIn value after byte = [] := by
  obtain ⟨earlier, later⟩ := stop_le valid parts
  rw [Interval.mem_iff] at inside
  have none : ∀ nodes : List (Node α),
      (∀ other ∈ nodes, byte ∉ other.region) →
        valuesIn value nodes byte = [] := by
    intro nodes outside
    unfold valuesIn
    rw [List.filter_eq_nil_iff.mpr fun other member inOther =>
      outside other member (of_decide_eq_true inOther), List.map_nil]
  constructor
  · refine none before fun other member => ?_
    have stop := earlier other member
    rw [Interval.mem_iff]
    omega
  · refine none after fun other member => ?_
    have start := later other member
    rw [Interval.mem_iff]
    omega

end Values

/-! ### Fragmentations -/

/-- The effect of a fragmentation of one node. -/
structure FragmentsNode {β : Type v} (value : α → β) (map : RegionMap α)
    (node : Node α) (region : Interval) (removeIntersection : Bool)
    (changed : RegionMap α) (found : Iterator) : Prop where
  valid : changed.Valid
  values : ∀ byte, changed.valuesAt value byte =
    if removeIntersection = true ∧ byte ∈ node.region ∧ byte ∈ region then []
    else map.valuesAt value byte
  intersection :
    if removeIntersection then found = none
    else ∃ piece, found.bind changed.node = some piece ∧
      piece.region = DataAccessRegion.intersect node.region region

/-- The effect of the fragmentation of all nodes by a region. -/
structure FragmentsAll {β : Type v} (value : α → β) (map : RegionMap α)
    (region : Interval) (changed : RegionMap α) : Prop where
  valid : changed.Valid
  values : ∀ byte, changed.valuesAt value byte = map.valuesAt value byte
  apart : ∀ node ∈ changed.nodes,
    DataAccessRegion.fullyContainedIn node.region region = true ∨
      ¬ node.region.Meets region

section Results

variable {β : Type v} {value : α → β} {lambdas : Lambdas α}
  (copies : ∀ contents, value (lambdas.duplicator contents) = value contents)
  (kept : ∀ fragment original,
    value (lambdas.postprocessor fragment original) = value fragment)

include copies kept

theorem fragmentsNode_of_meets (valid : map.Valid)
    (parts : map.nodes = before ++ node :: after) {region : Interval}
    (meets : node.region.Meets region) (removeIntersection : Bool) :
    ∃ changed found,
      map.fragmentByIntersection lambdas node.id region removeIntersection =
        some (changed, found) ∧
      FragmentsNode value map node region removeIntersection changed
        found := by
  have fresh := valid.fresh node (by
    rw [parts]
    exact List.mem_append_right _ List.mem_cons_self)
  have changedValid := valid_of_replacement valid parts
    (replacement_fragments meets fresh : Replacement node map.created _
      (node.fragments lambdas region removeIntersection map.created))
    (Nat.le_add_right _ _)
  refine ⟨_, _, fragmentByIntersection_eq lambdas removeIntersection valid
    parts meets, changedValid, fun byte => ?_, ?_⟩
  · unfold valuesAt
    rw [parts, ← List.singleton_append, ← List.append_assoc,
      valuesIn_append, valuesIn_append, valuesIn_append, valuesIn_append,
      valuesIn_fragments meets copies kept]
    by_cases removed : removeIntersection = true ∧ byte ∈ region
    · rw [if_pos removed]
      by_cases inside : byte ∈ node.region
      · have around := valuesIn_outside value valid parts inside
        rw [around.1, around.2, if_pos ⟨removed.1, inside, removed.2⟩]
        rfl
      · rw [if_neg fun both => inside both.2.1, valuesIn_singleton,
          if_neg inside]
    · rw [if_neg removed, if_neg fun both => removed ⟨both.1, both.2.2⟩]
  · cases removeIntersection with
    | true => rfl
    | false =>
        rw [if_neg Bool.false_ne_true]
        refine ⟨⟨node.id, node.region.inter region,
          node.keptContents lambdas false⟩, ?_, ?_⟩
        · have kept : before ++ node.fragments lambdas region false
              map.created ++ after =
                before ++ node.leftFragment lambdas region false
                  map.created ++ ⟨node.id, node.region.inter region,
                    node.keptContents lambdas false⟩ ::
                      (node.rightFragment lambdas region false
                        map.created ++ after) := by
            unfold Node.fragments Node.middleFragment
            simp only [List.append_assoc, Bool.false_eq_true, if_false,
              List.cons_append, List.nil_append]
          exact node_eq changedValid kept
        · exact (DataAccessRegion.intersect_of_meets meets).symm

/-- The fragments that take the place of a node. -/
def HaveValues (value : α → β) (region : Interval) (node : Node α)
    (pieces : List (Node α)) : Prop :=
  (∀ byte, valuesIn value pieces byte = valuesIn value [node] byte) ∧
    ∀ piece ∈ pieces,
      DataAccessRegion.fullyContainedIn piece.region region = true ∨
        ¬ piece.region.Meets region

theorem replaces_fragments (region : Interval) :
    Replaces (fun (_ : Unit) (map : RegionMap α) position =>
      (fragmentByIntersection lambdas map position region false).map
        fun result => ((), result.1, true)) region
      (HaveValues value region) := by
  intro _ map before node after valid parts meets
  have fresh := valid.fresh node (by
    rw [parts]
    exact List.mem_append_right _ List.mem_cons_self)
  refine ⟨(), _, node.fragments lambdas region false map.created, ?_,
    valid_of_replacement valid parts (replacement_fragments meets fresh)
      (Nat.le_add_right _ _), rfl, fun byte => ?_, fun piece member => ?_⟩
  · dsimp only
    rw [fragmentByIntersection_eq lambdas false valid parts meets]
    rfl
  · rw [valuesIn_fragments meets copies kept]
    exact if_neg (by simp)
  · exact fragments_apart meets member

omit copies kept in
/-- The parts have the values of the nodes in whose places they are. -/
theorem haveValues_flatten {region : Interval} {nodes : List (Node α)}
    {parts : List (List (Node α))}
    (replaced : List.Forall₂ (fun node part =>
      if node.region.Meets region then HaveValues value region node part
      else part = [node]) nodes parts) :
    (∀ byte, valuesIn value parts.flatten byte =
      valuesIn value nodes byte) ∧
      ∀ piece ∈ parts.flatten,
        DataAccessRegion.fullyContainedIn piece.region region = true ∨
          ¬ piece.region.Meets region := by
  induction replaced with
  | nil => exact ⟨fun _ => rfl, nofun⟩
  | @cons node part nodes parts here _ inductionHypothesis =>
      obtain ⟨values, apart⟩ := inductionHypothesis
      have first : HaveValues value region node part := by
        split at here
        · exact here
        · rename_i outside
          subst here
          exact ⟨fun _ => rfl, fun piece member => by
            rw [List.mem_singleton.mp member]
            exact Or.inr outside⟩
      refine ⟨fun byte => ?_, fun piece member => ?_⟩
      · rw [List.flatten_cons, valuesIn_append, first.1, values,
          ← valuesIn_append, List.singleton_append]
      · rw [List.flatten_cons] at member
        rcases List.mem_append.mp member with inPart | inRest
        · exact first.2 piece inPart
        · exact apart piece inRest

/-- All nodes are fragmented by the region. -/
theorem fragmentsAll_of_valid (valid : map.Valid) (region : Interval) :
    ∃ changed, map.fragmentIntersecting lambdas region = some changed ∧
      FragmentsAll value map region changed := by
  obtain ⟨later, changed, before, after, parts, run, nodes, earlier,
    changedValid, changedNodes, replaced⟩ := processIntersecting_eq
      (replaces_fragments copies kept region) valid ()
  obtain ⟨values, apart⟩ := haveValues_flatten replaced
  refine ⟨changed, ?_, changedValid, fun byte => ?_, fun node member => ?_⟩
  · rw [fragmentIntersecting, run, Option.map_some]
  · unfold valuesAt
    rw [changedNodes, nodes, valuesIn_append, valuesIn_append, values]
  · rw [changedNodes] at member
    rcases List.mem_append.mp member with inBefore | inParts
    · exact Or.inr (not_meets_of_before (earlier node inBefore))
    · exact apart node inParts

/-- Fragmentations keep the map in order and the contents of each byte. -/
theorem keepsContents (valid : map.Valid) :
    (∀ node ∈ map.nodes, ∀ region removeIntersection,
      node.region.Meets region →
        ∃ changed found,
          map.fragmentByIntersection lambdas node.id region
            removeIntersection = some (changed, found) ∧
          FragmentsNode value map node region removeIntersection changed
            found) ∧
      ∀ region, ∃ changed,
        map.fragmentIntersecting lambdas region = some changed ∧
          FragmentsAll value map region changed := by
  refine ⟨?_, fragmentsAll_of_valid copies kept valid⟩
  intro node member region removeIntersection meets
  obtain ⟨before, after, parts⟩ := List.append_of_mem member
  exact fragmentsNode_of_meets copies kept valid parts meets
    removeIntersection

end Results

/-- Two nodes that touch. -/
def twoNodes : RegionMap Nat :=
  ⟨[⟨0, ⟨0, 8⟩, 5⟩, ⟨1, ⟨8, 12⟩, 6⟩], 2⟩

theorem keepsContents_twoNodes :
    ∃ changed,
      twoNodes.fragmentIntersecting ⟨id, fun fragment _ => fragment⟩
        ⟨2, 10⟩ = some changed ∧
      FragmentsAll id twoNodes ⟨2, 10⟩ changed :=
  (keepsContents (fun _ => rfl) (fun _ _ => rfl)
    ⟨by decide, by decide, by decide, by decide⟩).2 _

end RegionMap

end Nanos6.Regions
