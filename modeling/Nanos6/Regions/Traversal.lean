import Nanos6.Regions.Fragmentation

/-!
# Traversals of a region map

`processIntersectingAndMissing` visits the nodes that a region meets and the gaps
between them.  It advances its iterator before it calls a processor, and keeps
the end of the last node on its own, so the processors may replace the node and
fill the gap that they are given.
-/

namespace Nanos6.Regions

open Foundation

universe u

variable {α : Type u} {σ : Type}

structure Processors (σ : Type) (α : Type u) where
  intersectingProcessor : Processor σ α Nat
  missingProcessor : Processor σ α Interval

def Traversal.afterAll (traversal : Traversal σ α) (calls : List (Call α)) :
    Traversal σ α :=
  { traversal with calls := calls ++ traversal.calls }

namespace RegionMap

/-- The call for a region that is missing, if it is not empty. -/
def processMissing (processors : Processors σ α) (state : σ)
    (map : RegionMap α) (missingRegion : Interval) :
    Option (Traversal σ α) :=
  if missingRegion.start < missingRegion.stop then
    (processors.missingProcessor state map missingRegion).map
      fun (state, map, cont) => ⟨state, map, [.missing missingRegion], cont⟩
  else some ⟨state, map, [], true⟩

/-- The loop of `processIntersectingAndMissing`, with a bound on the number of
nodes that it looks at. -/
def processIntersectingAndMissingFrom (processors : Processors σ α)
    (region : Interval) :
    Nat → σ → RegionMap α → Iterator → Nat → Option (Traversal σ α)
  | 0, _, _, _, _ => none
  | _ + 1, state, map, none, lastEnd =>
      processMissing processors state map ⟨lastEnd, region.stop⟩
  | fuel + 1, state, map, some position, lastEnd =>
      (map.node position).bind fun node =>
        if node.region.start < region.stop then
          let following := map.next position
          (processMissing processors state map
            ⟨lastEnd, node.region.start⟩).bind fun missing =>
              if missing.completed then
                (missing.map.node position).bind fun current =>
                  (processors.intersectingProcessor missing.state missing.map
                    position).bind fun (state, map, cont) =>
                      let calls := missing.calls ++ [.intersecting current]
                      if cont then
                        (processIntersectingAndMissingFrom processors region
                          fuel state map following
                          (if current.region.stop ≤ region.stop then
                            current.region.stop
                          else region.stop)).map (Traversal.afterAll · calls)
                      else some ⟨state, map, calls, false⟩
              else some missing
        else processMissing processors state map ⟨lastEnd, region.stop⟩

def processIntersectingAndMissing (processors : Processors σ α)
    (region : Interval) (state : σ) (map : RegionMap α) :
    Option (Traversal σ α) :=
  if map.nodes.isEmpty then
    (processors.missingProcessor state map region).map
      fun (state, map, cont) => ⟨state, map, [.missing region], cont⟩
  else
    let initial := map.lowerBound region.start
    let iterator := map.firstIntersecting region
    (iterator.bind map.node).bind fun node =>
      processIntersectingAndMissingFrom processors region
        (map.nodes.length + 1) state map
        (if node.region.stop ≤ region.start then initial else iterator)
        region.start

/-- The loop of `exists`. -/
def existsFrom (condition : Node α → Bool) (region : Interval)
    (map : RegionMap α) : Nat → Iterator → Option Bool
  | 0, _ => none
  | _ + 1, none => some false
  | fuel + 1, some position =>
      (map.node position).bind fun node =>
        if node.region.start < region.stop then
          if !DataAccessRegion.isEmpty
              (DataAccessRegion.intersect region node.region) &&
              condition node then
            some true
          else existsFrom condition region map fuel (map.next position)
        else some false

/-- `exists`. -/
def existsIn (map : RegionMap α) (region : Interval)
    (condition : Node α → Bool) : Option Bool :=
  existsFrom condition region map (map.nodes.length + 1)
    (map.firstIntersecting region)

def contains (map : RegionMap α) (region : Interval) : Option Bool :=
  map.existsIn region fun _ => true

end RegionMap

/-! ### Consecutive regions -/

/-- The regions follow each other from one address to another. -/
def Tiles : Nat → Nat → List Interval → Prop
  | low, high, [] => low = high
  | low, high, first :: rest =>
      first.start = low ∧ first.Nonempty ∧ Tiles first.stop high rest

theorem le_of_tiles {low high : Nat} {parts : List Interval}
    (tiles : Tiles low high parts) : low ≤ high := by
  induction parts generalizing low with
  | nil => exact Nat.le_of_eq tiles
  | cons first rest inductionHypothesis =>
      obtain ⟨start, nonempty, tiles⟩ := tiles
      have later := inductionHypothesis tiles
      unfold Interval.Nonempty at nonempty
      omega

/-- Each address between the two is in one of the regions. -/
theorem countP_tiles {low high : Nat} {parts : List Interval}
    (tiles : Tiles low high parts) (byte : Nat) :
    parts.countP (fun part => decide (byte ∈ part)) =
      if low ≤ byte ∧ byte < high then 1 else 0 := by
  induction parts generalizing low with
  | nil =>
      rw [show low = high from tiles, if_neg (by omega)]
      rfl
  | cons first rest inductionHypothesis =>
      obtain ⟨start, nonempty, tiles⟩ := tiles
      have later := le_of_tiles tiles
      unfold Interval.Nonempty at nonempty
      rw [List.countP_cons, inductionHypothesis tiles]
      simp only [decide_eq_true_eq, Interval.mem_iff]
      split
      · rw [if_neg (by omega), if_pos (by omega)]
      · by_cases inFirst : byte < first.stop ∧ low ≤ byte
        · rw [if_pos (by omega), if_pos (by omega)]
        · rw [if_neg (by omega), if_neg (by omega)]

/-! ### The calls -/

namespace Call

/-- The part of the region that a call is for. -/
def part (region : Interval) : Call α → Interval
  | intersecting node => node.region.inter region
  | missing missingRegion => missingRegion

def visited : Call α → Option (Node α)
  | intersecting node => some node
  | missing _ => none

end Call

/-- The calls visit the nodes that meet the region, and are for parts of it that
follow each other. -/
structure PartitionsFrom (region : Interval) (low : Nat)
    (nodes : List (Node α)) (calls : List (Call α)) : Prop where
  visited : calls.filterMap Call.visited = RegionMap.meeting region nodes
  tiles : Tiles low region.stop (calls.map (Call.part region))

/-- The gap before the next node, if there is one, and the node. -/
theorem PartitionsFrom.cons {region : Interval} {lastEnd : Nat}
    {node : Node α} {rest : List (Node α)} {calls : List (Call α)}
    (partition : PartitionsFrom region
      (min node.region.stop region.stop) rest calls)
    (meets : node.region.Meets region) (lower : region.start ≤ lastEnd)
    (follows : lastEnd ≤ max node.region.start region.start) :
    PartitionsFrom region lastEnd (node :: rest)
      ((if lastEnd < node.region.start then
          [.missing ⟨lastEnd, node.region.start⟩] else []) ++
        [.intersecting node] ++ calls) := by
  have bounds : max node.region.start region.start <
      min node.region.stop region.stop := meets
  constructor
  · rw [RegionMap.meeting_cons_of_meets meets, ← partition.visited,
      List.filterMap_append, List.filterMap_append]
    split
    · rfl
    · rfl
  · split
    · rename_i gap
      exact ⟨rfl, gap, Nat.max_eq_left (by omega), meets, partition.tiles⟩
    · refine ⟨?_, meets, partition.tiles⟩
      change max node.region.start region.start = lastEnd
      omega

namespace RegionMap

/-- The intersecting processor only splits, replaces or erases the node that it
is given. -/
def Splits (processor : Processor σ α Nat) (region : Interval) : Prop :=
  Replaces processor region fun node pieces =>
    ∀ piece ∈ pieces, node.region.start ≤ piece.region.start ∧
      piece.region.stop ≤ node.region.stop

/-- The missing processor only inserts nodes in the region that it is given. -/
def Fills (processor : Processor σ α Interval) : Prop :=
  ∀ state map before after missingRegion, Valid map →
    map.nodes = before ++ after → missingRegion.Nonempty →
    (∀ node ∈ before, node.region.stop ≤ missingRegion.start) →
    (∀ node ∈ after, missingRegion.stop ≤ node.region.start) →
      ∃ later changed inserted,
        processor state map missingRegion = some (later, changed, true) ∧
        changed.Valid ∧ changed.nodes = before ++ inserted ++ after ∧
        ∀ node ∈ inserted, missingRegion.start ≤ node.region.start ∧
          node.region.stop ≤ missingRegion.stop

/-- The loop starts at the first node that ends in the region or behind it: at the
one before the lower bound or, if that one ends before the region, at the lower
bound. -/
theorem exists_start {map : RegionMap α} (valid : map.Valid)
    (region : Interval) (some : map.nodes ≠ []) :
    ∃ node, (map.firstIntersecting region).bind map.node = Option.some node ∧
      ∃ skipped left, map.nodes = skipped ++ left ∧
        (∀ other ∈ skipped, other.region.stop ≤ region.start) ∧
        (∀ other ∈ left, region.start < other.region.stop) ∧
        (if node.region.stop ≤ region.start then
          map.lowerBound region.start
        else map.firstIntersecting region) = Node.front left := by
  have ends : ∀ node ∈ map.nodes, region.start ≤ node.region.start →
      region.start < node.region.stop := fun node member follows =>
    Nat.lt_of_le_of_lt follows (valid.nonempty node member)
  obtain ⟨before, after, parts, earlier, start, place⟩ :=
    firstIntersecting_cases valid region
  rcases place with ⟨-, nonempty, follows⟩ |
    ⟨last, rest, rfl, bound, below, follows⟩
  · cases after with
    | nil =>
        rcases nonempty with impossible | empty
        · exact absurd rfl impossible
        · exact absurd empty some
    | cons node rest =>
        have endsAfter : ∀ other ∈ node :: rest,
            region.start < other.region.stop := fun other member =>
          ends other (by
            rw [parts]
            exact List.mem_append_right _ member) (follows other member)
        refine ⟨node, ?_, before, node :: rest, parts, earlier, endsAfter, ?_⟩
        · rw [start]
          exact node_eq valid parts
        · rw [if_neg (Nat.not_le_of_lt (endsAfter node List.mem_cons_self)),
            start]
  · have endsRest : ∀ other ∈ rest, region.start < other.region.stop :=
      fun other member => ends other (by
        rw [parts]
        exact List.mem_append_right _ (List.mem_cons_of_mem _ member))
        (follows other member)
    refine ⟨last, ?_, ?_⟩
    · rw [start]
      exact node_eq valid parts
    · by_cases ended : last.region.stop ≤ region.start
      · refine ⟨before ++ [last], rest, ?_, ?_, endsRest, ?_⟩
        · rw [parts, List.append_assoc, List.singleton_append]
        · intro other member
          rcases List.mem_append.mp member with inBefore | isLast
          · exact earlier other inBefore
          · rw [List.mem_singleton.mp isLast]
            exact ended
        · rw [if_pos ended, bound]
      · refine ⟨before, last :: rest, parts, earlier,
          List.forall_mem_cons.mpr ⟨Nat.lt_of_not_le ended, endsRest⟩, ?_⟩
        rw [if_neg ended, start]

/-- Where the loop is: what is before `lastEnd` has been dealt with, and the nodes
that are left begin there or later. -/
structure AtLastEnd (region : Interval) (before after : List (Node α))
    (lastEnd : Nat) : Prop where
  lower : region.start ≤ lastEnd
  upper : lastEnd ≤ region.stop
  earlier : (∀ node ∈ before, node.region.stop ≤ lastEnd) ∨
    lastEnd = region.stop
  follows : ∀ node ∈ after, lastEnd ≤ max node.region.start region.start
  ends : ∀ node ∈ after, region.start < node.region.stop

/-- The place behind the next node. -/
theorem AtLastEnd.next {region : Interval} {before rest : List (Node α)}
    {inserted pieces : List (Node α)} {node : Node α} {lastEnd : Nat}
    (place : AtLastEnd region before (node :: rest) lastEnd)
    (nonempty : region.start < region.stop)
    (inside : node.region.start < region.stop)
    (nonemptyNode : node.region.start < node.region.stop)
    (later : ∀ other ∈ rest, node.region.stop ≤ other.region.start)
    (within : ∀ other ∈ inserted, other.region.stop ≤ node.region.start)
    (withinNode : ∀ piece ∈ pieces, piece.region.stop ≤ node.region.stop) :
    AtLastEnd region (before ++ inserted ++ pieces) rest
      (min node.region.stop region.stop) := by
  have follows := place.follows node List.mem_cons_self
  have ends := place.ends node List.mem_cons_self
  refine ⟨by omega, Nat.min_le_right _ _, ?_, ?_, ?_⟩
  · by_cases whole : node.region.stop ≤ region.stop
    · left
      rw [Nat.min_eq_left whole]
      intro other member
      rcases List.mem_append.mp member with inRest | inPieces
      · rcases List.mem_append.mp inRest with inBefore | inInserted
        · rcases place.earlier with earlier | impossible
          · have stop := earlier other inBefore
            omega
          · omega
        · have stop := within other inInserted
          omega
      · exact withinNode other inPieces
    · right
      omega
  · intro other member
    have start := later other member
    omega
  · intro other member
    exact place.ends other (List.mem_cons_of_mem _ member)

section Loops

variable {processors : Processors σ α} {region : Interval}
  (fills : Fills processors.missingProcessor)

include fills

/-- A gap between two nodes. -/
theorem processMissing_eq {map : RegionMap α} {before after : List (Node α)}
    (valid : map.Valid) (nodes : map.nodes = before ++ after) (state : σ)
    (gap : Interval)
    (earlier : gap.start < gap.stop →
      ∀ node ∈ before, node.region.stop ≤ gap.start)
    (later : gap.start < gap.stop →
      ∀ node ∈ after, gap.stop ≤ node.region.start) :
    ∃ last changed inserted,
      processMissing processors state map gap =
        some ⟨last, changed,
          if gap.start < gap.stop then [.missing gap] else [], true⟩ ∧
      changed.Valid ∧ changed.nodes = before ++ inserted ++ after ∧
      ∀ node ∈ inserted, node.region.stop ≤ gap.stop := by
  unfold processMissing
  by_cases nonempty : gap.start < gap.stop
  · obtain ⟨last, changed, inserted, called, changedValid, changedNodes,
      within⟩ := fills state map before after gap valid nodes nonempty
        (earlier nonempty) (later nonempty)
    refine ⟨last, changed, inserted, ?_, changedValid, changedNodes,
      fun node member => (within node member).2⟩
    rw [if_pos nonempty, if_pos nonempty, called, Option.map_some]
  · refine ⟨state, map, [], ?_, valid, ?_, nofun⟩
    · rw [if_neg nonempty, if_neg nonempty]
    · rw [List.append_nil]
      exact nodes

/-- The last gap, when no node is left that meets the region. -/
theorem processMissing_last {map : RegionMap α}
    {before after : List (Node α)} (valid : map.Valid)
    (nodes : map.nodes = before ++ after) (state : σ) {lastEnd : Nat}
    (bounded : lastEnd ≤ region.stop)
    (earlier : (∀ node ∈ before, node.region.stop ≤ lastEnd) ∨
      lastEnd = region.stop)
    (beyond : ∀ node ∈ after, region.stop ≤ node.region.start) :
    ∃ last changed calls,
      processMissing processors state map ⟨lastEnd, region.stop⟩ =
        some ⟨last, changed, calls, true⟩ ∧
      changed.Valid ∧ PartitionsFrom region lastEnd after calls := by
  obtain ⟨last, changed, inserted, called, changedValid, -, -⟩ :=
    processMissing_eq fills valid nodes state ⟨lastEnd, region.stop⟩
      (fun gap => earlier.resolve_right (by
        dsimp only at gap
        omega)) (fun _ => beyond)
  refine ⟨last, changed, _, called, changedValid, ?_, ?_⟩
  · rw [meeting_eq_nil fun node member =>
      not_meets_of_after (beyond node member)]
    split
    · rfl
    · rfl
  · dsimp only
    split
    · rename_i gap
      exact ⟨rfl, gap, rfl⟩
    · change lastEnd = region.stop
      omega

theorem processIntersectingAndMissingFrom_eq
    (splits : Splits processors.intersectingProcessor region)
    (nonempty : region.Nonempty) {after : List (Node α)} :
    ∀ (fuel : Nat) (state : σ) (map : RegionMap α)
      (before : List (Node α)) (lastEnd : Nat),
      map.Valid → map.nodes = before ++ after → after.length < fuel →
      AtLastEnd region before after lastEnd →
      ∃ last changed calls,
        processIntersectingAndMissingFrom processors region fuel state map
            (Node.front after) lastEnd =
          some ⟨last, changed, calls, true⟩ ∧
        changed.Valid ∧ PartitionsFrom region lastEnd after calls := by
  induction after with
  | nil =>
      intro fuel state map before lastEnd valid nodes enough place
      cases fuel with
      | zero => exact absurd enough (Nat.not_lt_zero _)
      | succ fuel =>
          exact processMissing_last fills valid nodes state place.upper
            place.earlier nofun
  | cons node rest inductionHypothesis =>
      intro fuel state map before lastEnd valid nodes enough place
      obtain ⟨followsNode, followsRest⟩ :=
        List.forall_mem_cons.mp place.follows
      obtain ⟨endsNode, endsRest⟩ := List.forall_mem_cons.mp place.ends
      have nonemptyNode := valid.nonempty node (by
        rw [nodes]
        exact List.mem_append_right _ List.mem_cons_self)
      have later := (stop_le valid nodes).2
      unfold Interval.Nonempty at nonempty nonemptyNode
      cases fuel with
      | zero => exact absurd enough (Nat.not_lt_zero _)
      | succ fuel =>
          rw [show Node.front (node :: rest) = some node.id from rfl,
            processIntersectingAndMissingFrom, node_eq valid nodes,
            Option.bind_some]
          dsimp only
          rw [next_eq valid nodes]
          by_cases inside : node.region.start < region.stop
          · have meets : node.region.Meets region := by
              unfold Interval.Meets Interval.Nonempty Interval.inter
              dsimp only
              omega
            obtain ⟨middle, filled, inserted, called, filledValid,
              filledNodes, within⟩ := processMissing_eq fills valid nodes
                state ⟨lastEnd, node.region.start⟩
                (fun gap => place.earlier.resolve_right (by
                  dsimp only at gap
                  omega))
                (fun _ => List.forall_mem_cons.mpr
                  ⟨Nat.le_refl _, fun other member => by
                    have start := later other member
                    dsimp only
                    omega⟩)
            obtain ⟨next, split, pieces, processed, splitValid, splitNodes,
              withinNode⟩ := splits middle filled (before ++ inserted) node
                rest filledValid filledNodes meets
            have nextPlace : AtLastEnd region (before ++ inserted ++ pieces)
                rest (min node.region.stop region.stop) :=
              place.next nonempty inside nonemptyNode later within
                fun piece member => (withinNode piece member).2
            obtain ⟨last, changed, calls, run, changedValid, partition⟩ :=
              inductionHypothesis fuel next split _ _ splitValid splitNodes
                (Nat.lt_of_succ_lt_succ enough) nextPlace
            have newEnd : (if node.region.stop ≤ region.stop then
                node.region.stop else region.stop) =
                  min node.region.stop region.stop := Nat.min_def.symm
            rw [if_pos inside, called, Option.bind_some]
            dsimp only
            rw [if_pos rfl, node_eq filledValid filledNodes,
              Option.bind_some, processed, Option.bind_some]
            dsimp only
            rw [if_pos rfl, newEnd, run, Option.map_some]
            exact ⟨last, changed, _, rfl, changedValid,
              partition.cons meets place.lower followsNode⟩
          · rw [if_neg inside]
            apply processMissing_last fills valid nodes state place.upper
              place.earlier
            refine List.forall_mem_cons.mpr ⟨by omega, fun other member => ?_⟩
            have start := later other member
            omega

/-- The whole region, from a map that may be empty. -/
theorem processIntersectingAndMissing_eq
    (splits : Splits processors.intersectingProcessor region)
    (nonempty : region.Nonempty) {map : RegionMap α} (valid : map.Valid)
    (state : σ) :
    ∃ last changed calls,
      processIntersectingAndMissing processors region state map =
        some ⟨last, changed, calls, true⟩ ∧
      changed.Valid ∧
      PartitionsFrom region region.start map.nodes calls := by
  unfold processIntersectingAndMissing
  by_cases empty : map.nodes = []
  · obtain ⟨last, changed, -, called, changedValid, -, -⟩ :=
      fills state map [] [] region valid empty nonempty nofun nofun
    refine ⟨last, changed, [.missing region], ?_, changedValid, ?_, ?_⟩
    · rw [if_pos (List.isEmpty_iff.mpr empty), called, Option.map_some]
    · rw [empty]
      rfl
    · exact ⟨rfl, nonempty, rfl⟩
  · rw [if_neg (by simpa using empty)]
    obtain ⟨node, isNode, skipped, left, nodes, ended, ends, iterator⟩ :=
      exists_start valid region empty
    dsimp only
    rw [isNode, Option.bind_some, iterator]
    have enough : left.length < map.nodes.length + 1 := by
      rw [nodes, List.length_append]
      omega
    obtain ⟨last, changed, calls, run, changedValid, partition⟩ :=
      processIntersectingAndMissingFrom_eq fills splits nonempty _ state map
        skipped region.start valid nodes enough
        ⟨Nat.le_refl _, Nat.le_of_lt nonempty, Or.inl ended,
          fun _ _ => Nat.le_max_right _ _, ends⟩
    refine ⟨last, changed, calls, run, changedValid, ?_, partition.tiles⟩
    rw [partition.visited, nodes, meeting_append,
      meeting_eq_nil fun other member =>
        not_meets_of_before (ended other member), List.nil_append]

end Loops

/-- The loop of `exists` looks at the nodes that meet the region. -/
theorem existsFrom_eq (condition : Node α → Bool) (region : Interval)
    {map : RegionMap α} (valid : map.Valid) {after : List (Node α)} :
    ∀ (fuel : Nat) (before : List (Node α)), map.nodes = before ++ after →
      after.length < fuel →
      existsFrom condition region map fuel (Node.front after) =
        some ((meeting region after).any condition) := by
  induction after with
  | nil =>
      intro fuel before nodes enough
      cases fuel with
      | zero => exact absurd enough (Nat.not_lt_zero _)
      | succ fuel => rfl
  | cons node rest inductionHypothesis =>
      intro fuel before nodes enough
      cases fuel with
      | zero => exact absurd enough (Nat.not_lt_zero _)
      | succ fuel =>
          have rest := inductionHypothesis fuel (before ++ [node]) (by
            rw [nodes, List.append_assoc, List.singleton_append])
            (Nat.lt_of_succ_lt_succ enough)
          rw [show Node.front (node :: _) = some node.id from rfl,
            existsFrom, node_eq valid nodes, Option.bind_some,
            next_eq valid nodes, rest]
          by_cases inside : node.region.start < region.stop
          · rw [if_pos inside]
            by_cases meets : node.region.Meets region
            · rw [meeting_cons_of_meets meets, List.any_cons,
                (DataAccessRegion.isEmpty_intersect region node.region).mpr
                  meets]
              cases condition node <;> rfl
            · have isEmpty : DataAccessRegion.isEmpty
                  (DataAccessRegion.intersect region node.region) = true := by
                rw [← Bool.not_eq_false,
                  DataAccessRegion.isEmpty_intersect]
                exact meets
              rw [meeting_cons_of_apart meets, isEmpty]
              rfl
          · rw [if_neg inside, meeting_eq_nil]
            · rfl
            · refine List.forall_mem_cons.mpr
                ⟨not_meets_of_after (by omega), fun other member =>
                  not_meets_of_after ?_⟩
              have start := (stop_le valid nodes).2 other member
              have nonempty := valid.nonempty node (by
                rw [nodes]
                exact List.mem_append_right _ List.mem_cons_self)
              unfold Interval.Nonempty at nonempty
              omega

/-- `exists` agrees with a scan of all nodes. -/
theorem existsIn_eq {map : RegionMap α} (valid : map.Valid)
    (region : Interval) (condition : Node α → Bool) :
    map.existsIn region condition =
      some (map.nodes.any fun node =>
        decide (node.region.Meets region) && condition node) := by
  obtain ⟨before, after, nodes, earlier, start⟩ :=
    firstIntersecting_eq valid region
  have enough : after.length < map.nodes.length + 1 := by
    rw [nodes, List.length_append]
    omega
  have scan : (map.nodes.any fun node =>
      decide (node.region.Meets region) && condition node) =
        (meeting region map.nodes).any condition := by
    rw [meeting, List.any_filter]
  rw [existsIn, start, existsFrom_eq condition region valid _ before nodes
    enough, scan, nodes, meeting_append, meeting_eq_nil fun node member =>
      not_meets_of_before (earlier node member), List.nil_append]

/-! ### The traversals of a region -/

/-- The calls partition the region. -/
structure PartitionsRegion (region : Interval) (map : RegionMap α)
    (calls : List (Call α)) : Prop
    extends PartitionsFrom region region.start map.nodes calls where
  once : ∀ byte,
    (calls.map (Call.part region)).countP (fun part => decide (byte ∈ part)) =
      if byte ∈ region then 1 else 0

/-- A region is traversed in the order of its addresses and as it was at the
beginning, whatever processors that keep to their nodes and gaps do to the map. -/
theorem traversesRegion {processors : Processors σ α}
    {region : Interval} (nonempty : region.Nonempty)
    (splits : Splits processors.intersectingProcessor region)
    (fills : Fills processors.missingProcessor) {map : RegionMap α}
    (valid : map.Valid) (state : σ) :
    (∃ last changed calls,
      processIntersectingAndMissing processors region state map =
        some ⟨last, changed, calls, true⟩ ∧
      changed.Valid ∧ PartitionsRegion region map calls) ∧
    (∃ last changed,
      processIntersecting processors.intersectingProcessor region state map =
        some ⟨last, changed, (meeting region map.nodes).map .intersecting,
          true⟩ ∧ changed.Valid) ∧
    (∀ condition, map.existsIn region condition =
      some (map.nodes.any fun node =>
        decide (node.region.Meets region) && condition node)) ∧
    map.contains region =
      some (map.nodes.any fun node =>
        decide (node.region.Meets region)) := by
  refine ⟨?_, ?_, existsIn_eq valid region, ?_⟩
  · obtain ⟨last, changed, calls, run, changedValid, partition⟩ :=
      processIntersectingAndMissing_eq fills splits nonempty valid state
    exact ⟨last, changed, calls, run, changedValid, partition,
      countP_tiles partition.tiles⟩
  · obtain ⟨last, changed, -, -, -, run, -, -, changedValid, -, -⟩ :=
      processIntersecting_eq splits valid state
    exact ⟨last, changed, run, changedValid⟩
  · rw [contains, existsIn_eq valid]
    simp only [Bool.and_true]

/-- Processors that erase the nodes of a region. -/
def eraseNodes : Processors Unit α where
  intersectingProcessor _ map position := some ((), map.erase position, true)
  missingProcessor _ map _ := some ((), map, true)

theorem splits_eraseNodes (region : Interval) :
    Splits (eraseNodes : Processors Unit α).intersectingProcessor region := by
  intro state map before node after valid parts _
  refine ⟨(), _, [], rfl, ?_, ?_, nofun⟩
  · rw [erase_eq valid parts, ← List.append_nil before]
    exact valid_of_replacement valid parts
      ⟨nofun, nofun, List.Pairwise.nil, List.nodup_nil, nofun⟩
      (Nat.le_refl _)
  · rw [erase_eq valid parts, List.append_nil]

theorem fills_eraseNodes :
    Fills (eraseNodes : Processors Unit α).missingProcessor := by
  intro state map before after missingRegion valid parts _ _ _
  refine ⟨(), map, [], rfl, valid, ?_, nofun⟩
  rw [List.append_nil]
  exact parts

theorem traversesRegion_twoNodes :
    ∃ last changed calls,
      processIntersectingAndMissing eraseNodes ⟨6, 14⟩ () twoNodes =
        some ⟨last, changed, calls, true⟩ ∧
      changed.Valid ∧ PartitionsRegion ⟨6, 14⟩ twoNodes calls :=
  (traversesRegion (by decide) (splits_eraseNodes _) fills_eraseNodes
    ⟨by decide, by decide, by decide, by decide⟩ ()).1

end RegionMap

end Nanos6.Regions
