import Nanos6.Foundation.IntervalMap

/-!
# Region maps

An intrusive map of regions is a search tree of nodes, with the start address of
the region as the key.  The tree is given here by its nodes in order, each with
an identity that stands for its address, so that iterators stay valid while the
map changes under them.  An insertion goes where the search for its key ends, and
does nothing if the key is already there.  The region of a node can be set in
place, which does not move the node.
-/

namespace Nanos6.Regions

open Foundation

universe u

/-! ### Regions -/

namespace DataAccessRegion

/-- Null if the two regions have no byte in common. -/
def intersect (region other : Interval) : Interval :=
  let start := max region.start other.start
  let stop := min region.stop other.stop
  if start < stop then ⟨start, stop⟩ else ⟨0, 0⟩

/-- `empty`: the start is null and the length is 0. -/
def isEmpty (region : Interval) : Bool :=
  region.start == 0 && region.stop - region.start == 0

def fullyContainedIn (region other : Interval) : Bool :=
  intersect region other == region

theorem meets_comm (region other : Interval) :
    region.Meets other ↔ other.Meets region := by
  unfold Interval.Meets Interval.Nonempty Interval.inter
  dsimp only
  omega

theorem isEmpty_intersect (region other : Interval) :
    isEmpty (intersect region other) = false ↔ other.Meets region := by
  rw [meets_comm]
  unfold intersect Interval.Meets Interval.Nonempty Interval.inter
  dsimp only
  split
  · rename_i meets
    refine ⟨fun _ => meets, fun _ => ?_⟩
    rw [isEmpty, Bool.and_eq_false_iff]
    right
    rw [beq_eq_false_iff_ne]
    dsimp only
    omega
  · rename_i apart
    exact ⟨fun impossible => (nomatch impossible),
      fun meets => absurd meets apart⟩

theorem intersect_of_meets {region other : Interval}
    (meets : region.Meets other) :
    intersect region other = region.inter other :=
  if_pos meets

end DataAccessRegion

/-! ### Nodes and iterators -/

structure Node (α : Type u) where
  id : Nat
  region : Interval
  contents : α
  deriving DecidableEq, Repr

/-- The nodes in the order of the tree.  Nodes get the numbers of the nodes
created before them. -/
structure RegionMap (α : Type u) where
  nodes : List (Node α)
  created : Nat
  deriving DecidableEq, Repr

/-- None is the end of the map. -/
abbrev Iterator := Option Nat

variable {α : Type u}

namespace Node

/-- The iterator to the first of the nodes. -/
def front (nodes : List (Node α)) : Iterator :=
  nodes.head?.map Node.id

def next : List (Node α) → Nat → Iterator
  | [], _ => none
  | node :: rest, id => if node.id = id then front rest else next rest id

/-- The node before an iterator, which may be the end. -/
def previous : List (Node α) → Iterator → Iterator
  | [], _ => none
  | node :: rest, iterator =>
      if front rest = iterator then some node.id else previous rest iterator

/-- The search for the key ends before the first node with a larger one. -/
def insertNode (new : Node α) : List (Node α) → List (Node α)
  | [] => [new]
  | node :: rest =>
      if node.region.start < new.region.start then
        node :: insertNode new rest
      else if new.region.start < node.region.start then new :: node :: rest
      else node :: rest

end Node

namespace RegionMap

def begin (map : RegionMap α) : Iterator :=
  Node.front map.nodes

def node (map : RegionMap α) (id : Nat) : Option (Node α) :=
  map.nodes.find? fun node => node.id == id

def next (map : RegionMap α) (id : Nat) : Iterator :=
  Node.next map.nodes id

def lowerBound (map : RegionMap α) (address : Nat) : Iterator :=
  (map.nodes.find? fun node => decide (address ≤ node.region.start)).map
    Node.id

/-- The node is changed in place. -/
def modify (map : RegionMap α) (id : Nat) (change : Node α → Node α) :
    RegionMap α :=
  { map with
    nodes := map.nodes.map fun node =>
      if node.id = id then change node else node }

/-- A new object is inserted. -/
def insert (map : RegionMap α) (region : Interval) (contents : α) :
    RegionMap α where
  nodes := Node.insertNode ⟨map.created, region, contents⟩ map.nodes
  created := map.created + 1

def erase (map : RegionMap α) (id : Nat) : RegionMap α :=
  { map with nodes := map.nodes.filter fun node => node.id != id }

/-- The iterator at which the traversals of a region begin: one before the lower
bound, unless a node starts where the region does. -/
def firstIntersecting (map : RegionMap α) (region : Interval) : Iterator :=
  let iterator := map.lowerBound region.start
  if iterator = map.begin then iterator
  else
    match iterator.bind map.node with
    | none => Node.previous map.nodes iterator
    | some node =>
        if region.start < node.region.start then
          Node.previous map.nodes iterator
        else iterator

/-! ### Valid maps -/

/-- The nodes are disjoint and in order, and have numbers of their own. -/
structure Valid (map : RegionMap α) : Prop where
  nonempty : ∀ node ∈ map.nodes, node.region.Nonempty
  ordered : map.nodes.Pairwise fun first second =>
    first.region.stop ≤ second.region.start
  distinct : (map.nodes.map Node.id).Nodup
  fresh : ∀ node ∈ map.nodes, node.id < map.created

end RegionMap

/-! ### Iterators of a list in two parts -/

namespace Node

variable {before after : List (Node α)} {node : Node α}

theorem next_append (distinct : ((before ++ node :: after).map id).Nodup) :
    next (before ++ node :: after) node.id = front after := by
  induction before with
  | nil => exact if_pos rfl
  | cons first rest inductionHypothesis =>
      rw [List.cons_append, List.map_cons, List.nodup_cons] at distinct
      rw [List.cons_append, next, if_neg, inductionHypothesis distinct.2]
      intro same
      apply distinct.1
      rw [same]
      exact List.mem_map_of_mem
        (List.mem_append_right _ List.mem_cons_self)

theorem front_append_ne (distinct : ((before ++ node :: after).map id).Nodup) :
    front (before ++ node :: after) ≠ front after := by
  cases after with
  | nil =>
      cases before with
      | nil => exact fun impossible => (nomatch impossible)
      | cons first rest => exact fun impossible => (nomatch impossible)
  | cons second others =>
      intro same
      cases before with
      | nil =>
          rw [List.nil_append, List.map_cons, List.nodup_cons] at distinct
          apply distinct.1
          rw [Option.some.inj same]
          exact List.mem_map_of_mem List.mem_cons_self
      | cons first rest =>
          rw [List.cons_append, List.map_cons, List.nodup_cons] at distinct
          apply distinct.1
          rw [Option.some.inj same]
          exact List.mem_map_of_mem (List.mem_append_right _
            (List.mem_cons_of_mem _ List.mem_cons_self))

theorem previous_append
    (distinct : ((before ++ node :: after).map id).Nodup) :
    previous (before ++ node :: after) (front after) = some node.id := by
  induction before with
  | nil => exact if_pos rfl
  | cons first rest inductionHypothesis =>
      rw [List.cons_append, List.map_cons, List.nodup_cons] at distinct
      rw [List.cons_append, previous, if_neg (front_append_ne distinct.2),
        inductionHypothesis distinct.2]

theorem find?_append (distinct : ((before ++ node :: after).map id).Nodup) :
    (before ++ node :: after).find? (fun other => other.id == node.id) =
      some node := by
  induction before with
  | nil => exact List.find?_cons_of_pos (beq_self_eq_true _)
  | cons first rest inductionHypothesis =>
      rw [List.cons_append, List.map_cons, List.nodup_cons] at distinct
      rw [List.cons_append, List.find?_cons_of_neg,
        inductionHypothesis distinct.2]
      intro same
      apply distinct.1
      rw [beq_iff_eq.mp same]
      exact List.mem_map_of_mem
        (List.mem_append_right _ List.mem_cons_self)

end Node

namespace RegionMap

variable {map : RegionMap α} {before after : List (Node α)}
  {current : Node α}

/-! ### Where the nodes are -/

section Parts

variable (valid : map.Valid)

include valid

theorem node_eq (parts : map.nodes = before ++ current :: after) :
    map.node current.id = some current := by
  have distinct := valid.distinct
  rw [parts] at distinct
  rw [node, parts]
  exact Node.find?_append distinct

theorem next_eq (parts : map.nodes = before ++ current :: after) :
    map.next current.id = Node.front after := by
  have distinct := valid.distinct
  rw [parts] at distinct
  rw [next, parts]
  exact Node.next_append distinct

theorem previous_eq (parts : map.nodes = before ++ current :: after) :
    Node.previous map.nodes (Node.front after) = some current.id := by
  have distinct := valid.distinct
  rw [parts] at distinct
  rw [parts]
  exact Node.previous_append distinct

theorem begin_ne (parts : map.nodes = before ++ current :: after) :
    Node.front after ≠ map.begin := by
  have distinct := valid.distinct
  rw [parts] at distinct
  rw [begin, parts]
  exact (Node.front_append_ne distinct).symm

/-- The nodes before a node end where it starts. -/
theorem stop_le (parts : map.nodes = before ++ current :: after) :
    (∀ node ∈ before, node.region.stop ≤ current.region.start) ∧
      ∀ node ∈ after, current.region.stop ≤ node.region.start := by
  have ordered := valid.ordered
  rw [parts, List.pairwise_append, List.pairwise_cons] at ordered
  exact ⟨fun node member => ordered.2.2 node member current
    List.mem_cons_self, ordered.2.1.1⟩

/-- The nodes that start before an address are the first ones. -/
theorem exists_parts (address : Nat) :
    ∃ before after, map.nodes = before ++ after ∧
      (∀ node ∈ before, node.region.start < address) ∧
      (∀ node ∈ after, address ≤ node.region.start) ∧
      map.lowerBound address = Node.front after := by
  obtain ⟨nonempty, ordered, -, -⟩ := valid
  unfold lowerBound
  generalize map.nodes = nodes at nonempty ordered ⊢
  induction nodes with
  | nil => exact ⟨[], [], rfl, nofun, nofun, rfl⟩
  | cons first rest inductionHypothesis =>
      obtain ⟨firstNonempty, restNonempty⟩ :=
        List.forall_mem_cons.mp nonempty
      rw [List.pairwise_cons] at ordered
      by_cases below : first.region.start < address
      · obtain ⟨before, after, parts, starts, follows, found⟩ :=
          inductionHypothesis restNonempty ordered.2
        refine ⟨first :: before, after, ?_, ?_, follows, ?_⟩
        · rw [parts, List.cons_append]
        · exact List.forall_mem_cons.mpr ⟨below, starts⟩
        · rw [List.find?_cons_of_neg (by simpa using below), found]
      · refine ⟨[], first :: rest, rfl, nofun, ?_, ?_⟩
        · refine List.forall_mem_cons.mpr ⟨by omega, fun node member => ?_⟩
          have later := ordered.1 node member
          unfold Interval.Nonempty at firstNonempty
          omega
        · rw [List.find?_cons_of_pos (by simpa using below)]
          rfl

/-- The traversals of a region begin at the lower bound, or at a node that starts
before the region. -/
theorem firstIntersecting_cases (region : Interval) :
    ∃ before after, map.nodes = before ++ after ∧
      (∀ node ∈ before, node.region.stop ≤ region.start) ∧
      map.firstIntersecting region = Node.front after ∧
      ((map.lowerBound region.start = Node.front after ∧
          (after ≠ [] ∨ map.nodes = []) ∧
          ∀ node ∈ after, region.start ≤ node.region.start) ∨
        ∃ last rest, after = last :: rest ∧
          map.lowerBound region.start = Node.front rest ∧
          last.region.start < region.start ∧
          ∀ node ∈ rest, region.start ≤ node.region.start) := by
  obtain ⟨before, after, parts, starts, follows, found⟩ :=
    exists_parts valid region.start
  unfold firstIntersecting
  rw [found]
  dsimp only
  rcases List.eq_nil_or_concat before with rfl | ⟨front, last, rfl⟩
  · refine ⟨[], after, parts, nofun, if_pos ?_, Or.inl ⟨rfl, ?_, follows⟩⟩
    · rw [begin, parts, List.nil_append]
    · rw [parts, List.nil_append]
      exact Decidable.not_or_of_imp id
  · rw [List.concat_eq_append] at starts
    rw [List.concat_eq_append, List.append_assoc,
      List.singleton_append] at parts
    have below := starts last
      (List.mem_append_right _ (List.mem_singleton_self _))
    have earlier : ∀ node ∈ front, node.region.stop ≤ region.start := by
      intro node member
      have least := (stop_le valid parts).1 node member
      omega
    rw [if_neg (begin_ne valid parts)]
    cases after with
    | nil =>
        exact ⟨front, [last], parts, earlier, previous_eq valid parts,
          Or.inr ⟨last, [], rfl, rfl, below, nofun⟩⟩
    | cons next rest =>
        have nextParts : map.nodes = (front ++ [last]) ++ next :: rest := by
          rw [parts, List.append_assoc, List.singleton_append]
        have isNode : (Node.front (next :: rest)).bind map.node =
            some next := node_eq valid nextParts
        simp only [isNode]
        split
        · exact ⟨front, last :: next :: rest, parts, earlier,
            previous_eq valid parts,
            Or.inr ⟨last, next :: rest, rfl, rfl, below, follows⟩⟩
        · rename_i notLater
          refine ⟨front ++ [last], next :: rest, nextParts, ?_, rfl,
            Or.inl ⟨rfl, Or.inl (List.cons_ne_nil _ _), follows⟩⟩
          intro node member
          have least := (stop_le valid nextParts).1 node member
          have start := follows next List.mem_cons_self
          omega

/-- They leave out only nodes that end before the region. -/
theorem firstIntersecting_eq (region : Interval) :
    ∃ before after, map.nodes = before ++ after ∧
      (∀ node ∈ before, node.region.stop ≤ region.start) ∧
      map.firstIntersecting region = Node.front after := by
  obtain ⟨before, after, parts, earlier, start, -⟩ :=
    firstIntersecting_cases valid region
  exact ⟨before, after, parts, earlier, start⟩

end Parts

end RegionMap

/-! ### Traversals -/

inductive Call (α : Type u) where
  | intersecting (node : Node α)
  | missing (region : Interval)
  deriving DecidableEq, Repr

/-- What a traversal leaves: the state of its processors, the map, the calls that
were made and whether it went to the end. -/
structure Traversal (σ : Type) (α : Type u) where
  state : σ
  map : RegionMap α
  calls : List (Call α)
  completed : Bool

def Traversal.after {σ : Type} (traversal : Traversal σ α) (call : Call α) :
    Traversal σ α :=
  { traversal with calls := call :: traversal.calls }

/-- A processor may change the map and tells whether to continue.  None if an
assertion fails. -/
abbrev Processor (σ : Type) (α : Type u) (β : Type) :=
  σ → RegionMap α → β → Option (σ × RegionMap α × Bool)

namespace RegionMap

variable {σ : Type}

/-- The loop of `processIntersecting`, with a bound on the number of nodes that it
looks at. -/
def processIntersectingFrom (processor : Processor σ α Nat)
    (region : Interval) :
    Nat → σ → RegionMap α → Iterator → Option (Traversal σ α)
  | 0, _, _, _ => none
  | _ + 1, state, map, none => some ⟨state, map, [], true⟩
  | fuel + 1, state, map, some position =>
      (map.node position).bind fun node =>
        if node.region.start < region.stop then
          -- The iterator is advanced before the processor replaces the node.
          let following := map.next position
          if DataAccessRegion.isEmpty
              (DataAccessRegion.intersect region node.region) then
            processIntersectingFrom processor region fuel state map following
          else
            (processor state map position).bind fun (state, map, cont) =>
              if cont then
                (processIntersectingFrom processor region fuel state map
                  following).map (Traversal.after · (.intersecting node))
              else some ⟨state, map, [.intersecting node], false⟩
        else some ⟨state, map, [], true⟩

def processIntersecting (processor : Processor σ α Nat) (region : Interval)
    (state : σ) (map : RegionMap α) : Option (Traversal σ α) :=
  processIntersectingFrom processor region (map.nodes.length + 1) state map
    (map.firstIntersecting region)

/-- The nodes of a map that a query region meets. -/
def meeting (region : Interval) (nodes : List (Node α)) : List (Node α) :=
  nodes.filter fun node => decide (node.region.Meets region)

/-- A processor that replaces the node it is given by nodes that are related to
it, and lets the traversal go on. -/
def Replaces (processor : Processor σ α Nat) (region : Interval)
    (Relation : Node α → List (Node α) → Prop) : Prop :=
  ∀ state map before node after, Valid map →
    map.nodes = before ++ node :: after → node.region.Meets region →
      ∃ later changed pieces,
        processor state map node.id = some (later, changed, true) ∧
        changed.Valid ∧ changed.nodes = before ++ pieces ++ after ∧
        Relation node pieces

theorem not_meets_of_before {first second : Interval}
    (before : first.stop ≤ second.start) : ¬ first.Meets second := by
  unfold Interval.Meets Interval.Nonempty Interval.inter
  dsimp only
  omega

theorem not_meets_of_after {first second : Interval}
    (after : second.stop ≤ first.start) : ¬ first.Meets second := by
  rw [DataAccessRegion.meets_comm]
  exact not_meets_of_before after

theorem meeting_eq_nil {region : Interval} {nodes : List (Node α)}
    (apart : ∀ node ∈ nodes, ¬ node.region.Meets region) :
    meeting region nodes = [] :=
  List.filter_eq_nil_iff.mpr fun node member meets =>
    apart node member (of_decide_eq_true meets)

theorem meeting_append (region : Interval) (first second : List (Node α)) :
    meeting region (first ++ second) =
      meeting region first ++ meeting region second :=
  List.filter_append ..

theorem meeting_cons_of_meets {region : Interval} {node : Node α}
    {rest : List (Node α)} (meets : node.region.Meets region) :
    meeting region (node :: rest) = node :: meeting region rest :=
  List.filter_cons_of_pos (decide_eq_true meets)

theorem meeting_cons_of_apart {region : Interval} {node : Node α}
    {rest : List (Node α)} (apart : ¬ node.region.Meets region) :
    meeting region (node :: rest) = meeting region rest :=
  List.filter_cons_of_neg (by simpa using apart)

/-- The nodes behind a region are left alone. -/
theorem exists_unreplaced {region : Interval} {nodes : List (Node α)}
    (Relation : Node α → List (Node α) → Prop)
    (apart : ∀ node ∈ nodes, ¬ node.region.Meets region) :
    ∃ parts, parts.flatten = nodes ∧
      List.Forall₂ (fun node part =>
        if node.region.Meets region then Relation node part
        else part = [node]) nodes parts := by
  induction nodes with
  | nil => exact ⟨[], rfl, .nil⟩
  | cons node rest inductionHypothesis =>
      obtain ⟨here, later⟩ := List.forall_mem_cons.mp apart
      obtain ⟨parts, flattened, unreplaced⟩ := inductionHypothesis later
      refine ⟨[node] :: parts, ?_, .cons ?_ unreplaced⟩
      · rw [List.flatten_cons, flattened, List.singleton_append]
      · rw [if_neg here]

/-- The loop visits the nodes that meet the region, from the iterator on, and
replaces each of them. -/
theorem processIntersectingFrom_eq {processor : Processor σ α Nat}
    {region : Interval} {Relation : Node α → List (Node α) → Prop}
    (replaces : Replaces processor region Relation)
    {after : List (Node α)} :
    ∀ (fuel : Nat) (state : σ) (map : RegionMap α) (before : List (Node α)),
      map.Valid → map.nodes = before ++ after → after.length < fuel →
      ∃ later changed parts,
        processIntersectingFrom processor region fuel state map
            (Node.front after) =
          some ⟨later, changed, (meeting region after).map .intersecting,
            true⟩ ∧
        changed.Valid ∧ changed.nodes = before ++ parts.flatten ∧
        List.Forall₂ (fun node part =>
          if node.region.Meets region then Relation node part
          else part = [node]) after parts := by
  induction after with
  | nil =>
      intro fuel state map before valid nodes enough
      cases fuel with
      | zero => exact absurd enough (Nat.lt_irrefl 0)
      | succ fuel => exact ⟨state, map, [], rfl, valid, nodes, .nil⟩
  | cons node rest inductionHypothesis =>
      intro fuel state map before valid nodes enough
      cases fuel with
      | zero => exact absurd enough (Nat.not_lt_zero _)
      | succ fuel =>
          have enoughRest : rest.length < fuel := Nat.lt_of_succ_lt_succ enough
          rw [show Node.front (node :: rest) = some node.id from rfl,
            processIntersectingFrom, node_eq valid nodes, Option.bind_some]
          dsimp only
          rw [next_eq valid nodes]
          split
          · split
            · rename_i empty
              have apart : ¬ node.region.Meets region := by
                rw [← DataAccessRegion.isEmpty_intersect, empty]
                exact fun impossible => (nomatch impossible)
              obtain ⟨later, changed, parts, run, changedValid, changedNodes,
                replaced⟩ := inductionHypothesis fuel state map
                  (before ++ [node]) valid (by
                    rw [nodes, List.append_assoc, List.singleton_append])
                  enoughRest
              refine ⟨later, changed, [node] :: parts, ?_, changedValid, ?_,
                .cons (by rw [if_neg apart]) replaced⟩
              · rw [run, meeting_cons_of_apart apart]
              · rw [changedNodes, List.flatten_cons, List.append_assoc]
            · rename_i intersects
              have meets : node.region.Meets region := by
                rw [← DataAccessRegion.isEmpty_intersect]
                exact Bool.eq_false_iff.mpr intersects
              obtain ⟨middle, replacedMap, pieces, processed, replacedValid,
                replacedNodes, related⟩ :=
                  replaces state map before node rest valid nodes meets
              obtain ⟨later, changed, parts, run, changedValid, changedNodes,
                replaced⟩ := inductionHypothesis fuel middle replacedMap
                  (before ++ pieces) replacedValid replacedNodes enoughRest
              refine ⟨later, changed, pieces :: parts, ?_, changedValid, ?_,
                .cons (by rw [if_pos meets]; exact related) replaced⟩
              · rw [processed, Option.bind_some]
                dsimp only
                rw [if_pos rfl, run, Option.map_some,
                  meeting_cons_of_meets meets]
                rfl
              · rw [changedNodes, List.flatten_cons, List.append_assoc]
          · rename_i beyond
            have apart : ∀ other ∈ node :: rest,
                ¬ other.region.Meets region := by
              refine List.forall_mem_cons.mpr ⟨not_meets_of_after (by omega),
                fun other member => not_meets_of_after ?_⟩
              have later := (stop_le valid nodes).2 other member
              have nonempty := valid.nonempty node (by
                rw [nodes]
                exact List.mem_append_right _ List.mem_cons_self)
              unfold Interval.Nonempty at nonempty
              omega
            obtain ⟨parts, flattened, unreplaced⟩ :=
              exists_unreplaced Relation apart
            refine ⟨state, map, parts, ?_, valid, ?_, unreplaced⟩
            · rw [meeting_eq_nil apart]
              rfl
            · rw [flattened]
              exact nodes

theorem processIntersecting_eq {processor : Processor σ α Nat}
    {region : Interval} {Relation : Node α → List (Node α) → Prop}
    (replaces : Replaces processor region Relation)
    {map : RegionMap α} (valid : map.Valid) (state : σ) :
    ∃ later changed before after parts,
      processIntersecting processor region state map =
        some ⟨later, changed,
          (meeting region map.nodes).map .intersecting, true⟩ ∧
      map.nodes = before ++ after ∧
      (∀ node ∈ before, node.region.stop ≤ region.start) ∧
      changed.Valid ∧ changed.nodes = before ++ parts.flatten ∧
      List.Forall₂ (fun node part =>
        if node.region.Meets region then Relation node part
        else part = [node]) after parts := by
  obtain ⟨before, after, nodes, earlier, start⟩ :=
    firstIntersecting_eq valid region
  have enough : after.length < map.nodes.length + 1 := by
    rw [nodes, List.length_append]
    omega
  obtain ⟨later, changed, parts, run, changedValid, changedNodes,
    replaced⟩ := processIntersectingFrom_eq replaces _ state map before valid
      nodes enough
  refine ⟨later, changed, before, after, parts, ?_, nodes, earlier,
    changedValid, changedNodes, replaced⟩
  rw [processIntersecting, start, run, nodes, meeting_append,
    meeting_eq_nil fun node member =>
      not_meets_of_before (earlier node member), List.nil_append]

end RegionMap

end Nanos6.Regions
