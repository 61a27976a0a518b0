import Nanos6.Support.InlineDoublyLinkedList

/-!
# The sequences of doubly linked lists

The links represent the sequences as long as only nodes of a list are moved.  Then
the iterators enumerate them, with one exception: `crbegin` and `crend` are one
position too far.
-/

namespace Nanos6.InlineDoublyLinkedList

open Foundation

variable {ι ν : Type} [DecidableEq ι] [DecidableEq ν]

/-! ## What the links stand for -/

/-- The links represent the sequences. -/
structure Represents (memory : Memory ι ν) (contents : Contents ι ν) :
    Prop where
  rings : ∀ list,
    LinkedRing memory (.sentinel list)
      ((contents.sequences list).map .node)
  apart : ∀ list other, list ≠ other →
    ∀ node ∈ contents.sequences list, node ∉ contents.sequences other
  loose : ∀ node, contents.IsFree node → contents.erased node = false →
    memory (.node node) = selfLinked (.node node)

omit [DecidableEq ι] [DecidableEq ν] in
theorem mem_ring {contents : Contents ι ν} {list : ι} {cell : Address ι ν}
    (member : cell ∈
      Address.sentinel list :: (contents.sequences list).map .node) :
    cell = .sentinel list ∨
      ∃ node ∈ contents.sequences list, cell = .node node := by
  rcases List.mem_cons.mp member with isSentinel | inside
  · exact Or.inl isSentinel
  · obtain ⟨node, nodeMember, same⟩ := List.mem_map.mp inside
    exact Or.inr ⟨node, nodeMember, same.symm⟩

omit [DecidableEq ι] [DecidableEq ν] in
/-- The ring of a list, read off from one of its nodes. -/
theorem Represents.exists_ring {memory : Memory ι ν}
    {contents : Contents ι ν} (represents : Represents memory contents)
    {list : ι} {node : ν} (member : node ∈ contents.sequences list) :
    ∃ before after, contents.sequences list = before ++ node :: after ∧
      node ∉ before ∧ node ∉ after ∧
      LinkedRing memory (.node node)
        (after.map .node ++ .sentinel list :: before.map .node) ∧
      ∀ cell,
        cell ∈ Address.node node ::
            (after.map .node ++ .sentinel list :: before.map .node) ↔
          cell ∈
            Address.sentinel list ::
              (contents.sequences list).map .node := by
  obtain ⟨before, after, split, absent⟩ := List.eq_append_cons_of_mem member
  have ring := represents.rings list
  rw [split, List.map_append, List.map_cons] at ring
  refine ⟨before, after, split, absent, ?_, ring.rotate, ?_⟩
  · intro member
    apply (List.nodup_cons.mp ring.rotate.distinct).1
    exact List.mem_append_left _ (List.mem_map_of_mem member)
  · intro cell
    rw [split, List.map_append, List.map_cons]
    exact (perm_rotate _ _ _ _).mem_iff.symm

/-- The operation is on one list and on nodes that are in none. -/
theorem Represents.change {memory changed : Memory ι ν}
    {contents next : Contents ι ν} (represents : Represents memory contents)
    (list : ι) (extra : ν → Prop)
    (unused : ∀ node, extra node → contents.IsFree node)
    (ring : LinkedRing changed (.sentinel list)
      ((next.sequences list).map .node))
    (others : ∀ other, other ≠ list →
      next.sequences other = contents.sequences other)
    (members : ∀ node ∈ next.sequences list,
      node ∈ contents.sequences list ∨ extra node)
    (frame : ∀ cell,
      cell ∉ Address.sentinel list :: (contents.sequences list).map .node →
      (∀ node, extra node → cell ≠ .node node) → changed cell = memory cell)
    (sameErased : ∀ node, node ∉ contents.sequences list → ¬ extra node →
      next.erased node = contents.erased node)
    (loose : ∀ node, node ∈ contents.sequences list ∨ extra node →
      node ∉ next.sequences list → next.erased node = false →
        changed (.node node) = selfLinked (.node node)) :
    Represents changed next := by
  have elsewhere (other : ι) (differs : other ≠ list) (node : ν)
      (member : node ∈ contents.sequences other) :
      node ∉ contents.sequences list ∧ ¬ extra node :=
    ⟨represents.apart other list differs node member,
      fun isExtra => unused node isExtra other member⟩
  have untouched (node : ν) (outside : node ∉ contents.sequences list)
      (notExtra : ¬ extra node) :
      changed (.node node) = memory (.node node) := by
    apply frame
    · intro member
      rcases mem_ring member with isSentinel | ⟨same, inside, equal⟩
      · cases isSentinel
      · cases equal
        exact outside inside
    · rintro same isExtra equal
      cases equal
      exact notExtra isExtra
  constructor
  · intro other
    by_cases same : other = list
    · subst same
      exact ring
    · rw [others other same]
      apply (represents.rings other).congr
      intro cell member
      rcases mem_ring member with isSentinel | ⟨node, inside, equal⟩
      · subst isSentinel
        apply frame
        · intro ours
          rcases mem_ring ours with equal | ⟨node, -, equal⟩
          · cases equal
            exact same rfl
          · cases equal
        · rintro node - equal
          cases equal
      · subst equal
        obtain ⟨outside, notExtra⟩ := elsewhere other same node inside
        exact untouched node outside notExtra
  · intro first second differs node member
    by_cases firstSame : first = list
    · subst firstSame
      rw [others second differs.symm]
      rcases members node member with inside | isExtra
      · exact represents.apart first second differs node inside
      · exact unused node isExtra second
    · rw [others first firstSame] at member
      by_cases secondSame : second = list
      · subst secondSame
        intro memberSecond
        obtain ⟨outside, notExtra⟩ := elsewhere first firstSame node member
        rcases members node memberSecond with inside | isExtra
        · exact outside inside
        · exact notExtra isExtra
      · rw [others second secondSame]
        exact represents.apart first second differs node member
  · intro node free notErased
    by_cases touched : node ∈ contents.sequences list ∨ extra node
    · exact loose node touched (free list) notErased
    · obtain ⟨outside, notExtra⟩ := not_or.mp touched
      rw [untouched node outside notExtra]
      apply represents.loose
      · intro other
        by_cases same : other = list
        · subst same
          exact outside
        · rw [← others other same]
          exact free other
      · rw [← sameErased node outside notExtra]
        exact notErased

/-! ## Insertions -/

/-- A node is put before the base of a ring. -/
theorem exists_insert {memory : Memory ι ν} {base : Address ι ν}
    {cells : List (Address ι ν)} (ring : LinkedRing memory base cells)
    {node : ν} (absent : Address.node node ∉ base :: cells) :
    ∃ changed, insert memory base node = some changed ∧
      LinkedRing changed base (cells ++ [.node node]) ∧
      ∀ cell ∉ base :: cells, cell ≠ .node node →
        changed cell = memory cell := by
  obtain ⟨source, sourceMember, before⟩ := ring.exists_previous
  have notSource : Address.node node ≠ source := by
    rintro rfl
    exact absent sourceMember
  have notBase : Address.node node ≠ base := by
    rintro rfl
    exact absent List.mem_cons_self
  refine ⟨_, insert_eq before notSource notBase, ring.insert absent before,
    ?_⟩
  intro cell outside notNode
  have cellNotBase : cell ≠ base := by
    rintro rfl
    exact outside List.mem_cons_self
  have cellNotSource : cell ≠ source := by
    rintro rfl
    exact outside sourceMember
  rw [link_of_ne _ notNode cellNotBase, link_of_ne _ cellNotSource notNode]

theorem insertBefore_eq {position : ν} {before : List ν}
    (absent : position ∉ before) (node : ν) (after : List ν) :
    insertBefore position node (before ++ position :: after) =
      before ++ node :: position :: after := by
  induction before with
  | nil => simp [insertBefore]
  | cons first rest inductionHypothesis =>
      have differs : first ≠ position := by
        rintro rfl
        exact absent List.mem_cons_self
      have restAbsent : position ∉ rest := fun member =>
        absent (List.mem_cons_of_mem _ member)
      rw [List.cons_append, insertBefore, if_neg differs,
        inductionHypothesis restAbsent]
      rfl

/-- The links after an insertion represent the sequences with the node. -/
theorem Represents.insert {memory changed : Memory ι ν}
    {contents : Contents ι ν} (represents : Represents memory contents)
    {list : ι} {node : ν} (free : contents.IsFree node)
    (change : List ν → List ν)
    (members : ∀ other, other ∈ change (contents.sequences list) ↔
      other ∈ contents.sequences list ∨ other = node)
    (ring : LinkedRing changed (.sentinel list)
      ((change (contents.sequences list)).map .node))
    (frame : ∀ cell,
      cell ∉ Address.sentinel list :: (contents.sequences list).map .node →
      cell ≠ .node node → changed cell = memory cell) :
    Represents changed (contents.insert list node change) := by
  have inserted :
      (contents.insert list node change).sequences list =
        change (contents.sequences list) := by
    unfold Contents.insert
    simp
  apply represents.change list (· = node)
  · rintro _ rfl
    exact free
  · rw [inserted]
    exact ring
  · intro other differs
    unfold Contents.insert
    simp [differs]
  · intro other member
    rw [inserted] at member
    exact (members other).mp member
  · intro cell outside notNode
    exact frame cell outside (notNode node rfl)
  · intro other _ notNode
    unfold Contents.insert
    simp [notNode]
  · intro other touched outside _
    rw [inserted] at outside
    exact absurd ((members other).mpr touched) outside

theorem exists_insert_end {memory : Memory ι ν} {contents : Contents ι ν}
    (represents : Represents memory contents) (list : ι) {node : ν}
    (free : contents.IsFree node) :
    ∃ changed,
      InlineDoublyLinkedList.insert memory (.sentinel list) node =
          some changed ∧
        Represents changed (contents.insert list node (· ++ [node])) := by
  have absent :
      Address.node node ∉
        Address.sentinel list :: (contents.sequences list).map .node := by
    simpa using free list
  obtain ⟨changed, inserted, ring, frame⟩ :=
    exists_insert (represents.rings list) absent
  refine ⟨changed, inserted, represents.insert free _ ?_ ?_ frame⟩
  · intro other
    simp
  · simpa using ring

theorem exists_insert_before {memory : Memory ι ν} {contents : Contents ι ν}
    (represents : Represents memory contents) {list : ι} {node position : ν}
    (free : contents.IsFree node)
    (member : position ∈ contents.sequences list) :
    ∃ changed,
      InlineDoublyLinkedList.insert memory (.node position) node =
          some changed ∧
        Represents changed
          (contents.insert list node (insertBefore position node)) := by
  obtain ⟨before, after, split, absentBefore, -, ring, same⟩ :=
    represents.exists_ring member
  have absent :
      Address.node node ∉
        Address.sentinel list :: (contents.sequences list).map .node := by
    simpa using free list
  obtain ⟨changed, inserted, longer, frame⟩ :=
    exists_insert ring (fun inside => absent ((same _).mp inside))
  have placed := insertBefore_eq absentBefore node after
  refine ⟨changed, inserted, represents.insert free _ ?_ ?_ ?_⟩
  · intro other
    rw [split, placed]
    simp
    tauto
  · rw [split, placed]
    rw [List.append_assoc, List.cons_append] at longer
    simpa using longer.rotate
  · intro cell outside notNode
    exact frame cell (fun inside => outside ((same _).mp inside)) notNode

theorem exists_pushFront {memory : Memory ι ν} {contents : Contents ι ν}
    (represents : Represents memory contents) (list : ι) {node : ν}
    (free : contents.IsFree node) :
    ∃ changed, pushFront memory list node = some changed ∧
      Represents changed (contents.insert list node (node :: ·)) := by
  have begins := (represents.rings list).next_base
  unfold pushFront beginning
  rw [begins]
  cases split : contents.sequences list with
  | nil =>
      obtain ⟨changed, inserted, next⟩ :=
        exists_insert_end represents list free
      refine ⟨changed, inserted, ?_⟩
      unfold Contents.insert at next ⊢
      rw [split] at next ⊢
      exact next
  | cons first rest =>
      obtain ⟨changed, inserted, next⟩ :=
        exists_insert_before represents free
          (show first ∈ contents.sequences list by simp [split])
      refine ⟨changed, inserted, ?_⟩
      unfold Contents.insert at next ⊢
      rw [split, insertBefore, if_pos rfl] at next
      rw [split]
      exact next

/-! ## Erasures -/

theorem exists_erase (debug : Bool) {memory : Memory ι ν}
    {contents : Contents ι ν} (represents : Represents memory contents)
    {list : ι} {node : ν} (member : node ∈ contents.sequences list) :
    ∃ changed, erase debug memory (.node node) = some changed ∧
      Represents changed (contents.erase node) := by
  obtain ⟨before, after, split, absentBefore, absentAfter, ring, same⟩ :=
    represents.exists_ring member
  obtain ⟨source, sourceMember, previous⟩ := ring.exists_previous
  obtain ⟨target, targetMember, next⟩ := ring.exists_next
  have shorter := ring.erase_rotate previous next
  have erased : (contents.erase node).sequences list = before ++ after := by
    show (contents.sequences list).erase node = before ++ after
    rw [split, List.erase_append_right _ absentBefore, List.erase_cons_head]
  refine ⟨_, erase_eq previous next, ?_⟩
  apply represents.change list (fun _ => False)
  · exact fun _ impossible => impossible.elim
  · rw [erased, List.map_append]
    apply shorter.congr
    intro cell inside
    have notNode : cell ≠ .node node := by
      rintro rfl
      simp [absentBefore, absentAfter] at inside
    split
    · rw [Function.update_of_ne notNode]
    · rfl
  · intro other differs
    exact List.erase_of_not_mem
      (represents.apart list other differs.symm node member)
  · intro other inside
    rw [erased] at inside
    rw [split]
    left
    rcases List.mem_append.mp inside with inBefore | inAfter
    · exact List.mem_append_left _ inBefore
    · exact List.mem_append_right _ (List.mem_cons_of_mem _ inAfter)
  · intro cell outside _
    have apart {other : Address ι ν}
        (inside : other ∈ Address.node node ::
          (after.map .node ++ .sentinel list :: before.map .node)) :
        cell ≠ other := by
      rintro rfl
      exact outside ((same _).mp inside)
    split
    · rw [Function.update_of_ne (apart List.mem_cons_self),
        link_of_ne _ (apart sourceMember) (apart targetMember)]
    · rw [link_of_ne _ (apart sourceMember) (apart targetMember)]
  · intro other outside _
    have differs : other ≠ node := by
      rintro rfl
      exact outside member
    unfold Contents.erase
    simp [differs]
  · intro other touched outside notErased
    rw [erased] at outside
    rw [split] at touched
    have same : other = node := by
      simp at touched outside
      tauto
    subst same
    unfold Contents.erase at notErased
    simp at notErased

/-! ## Moves -/

theorem map_replace {target source : ν} {nodes : List ν}
    (absent : source ∉ nodes) :
    (nodes.map fun node => if node = source then target else node) =
      nodes := by
  refine (List.map_congr_left ?_).trans (List.map_id nodes)
  intro node member
  rw [if_neg]
  · rfl
  · rintro rfl
    exact absent member

theorem exists_moveLinks {memory : Memory ι ν} {contents : Contents ι ν}
    (represents : Represents memory contents) {list : ι} {target source : ν}
    (free : contents.IsFree target)
    (member : source ∈ contents.sequences list) :
    ∃ changed,
      moveLinks memory (.node target) (.node source) = some changed ∧
        Represents changed (contents.move target source) := by
  obtain ⟨before, after, split, absentBefore, absentAfter, ring, same⟩ :=
    represents.exists_ring member
  obtain ⟨first, firstMember, previous⟩ := ring.exists_previous
  obtain ⟨last, lastMember, next⟩ := ring.exists_next
  have absent (cell : Address ι ν)
      (inside : cell ∈ Address.node source ::
        (after.map .node ++ .sentinel list :: before.map .node)) :
      Address.node target ≠ cell := by
    rintro rfl
    have inList := (same _).mp inside
    simp at inList
    exact free list inList
  have differs : target ≠ source := by
    rintro rfl
    exact free list member
  have replaced := ring.replace_rotate
    (fun inside => absent _ (List.mem_cons_of_mem _ inside) rfl) previous next
  have moved :
      (contents.move target source).sequences list =
        before ++ target :: after := by
    show (contents.sequences list).map
        (fun node => if node = source then target else node) =
      before ++ target :: after
    rw [split, List.map_append, List.map_cons, map_replace absentBefore,
      map_replace absentAfter, if_pos rfl]
  refine ⟨_, moveLinks_eq previous next (absent _ firstMember)
    (absent _ lastMember), ?_⟩
  apply represents.change list (· = target)
  · rintro _ rfl
    exact free
  · rw [moved, List.map_append, List.map_cons]
    apply replaced.congr
    intro cell inside
    have notSource : cell ≠ .node source := by
      rintro rfl
      simp [absentBefore, absentAfter, differs.symm] at inside
    unfold clear
    rw [Function.update_of_ne notSource]
  · intro other notList
    exact map_replace
      (represents.apart list other notList.symm source member)
  · intro other inside
    rw [moved] at inside
    rw [split]
    simp at inside ⊢
    tauto
  · intro cell outside notTarget
    have apart {other : Address ι ν}
        (inside : other ∈ Address.node source ::
          (after.map .node ++ .sentinel list :: before.map .node)) :
        cell ≠ other := by
      rintro rfl
      exact outside ((same _).mp inside)
    unfold clear
    rw [Function.update_of_ne (apart List.mem_cons_self),
      link_of_ne _ (notTarget target rfl) (apart lastMember),
      link_of_ne _ (apart firstMember) (notTarget target rfl)]
  · intro other outside notTarget
    have notSource : other ≠ source := by
      rintro rfl
      exact outside member
    unfold Contents.move
    simp [notTarget, notSource]
  · intro other touched outside _
    rw [moved] at outside
    rw [split] at touched
    have isSource : other = source := by
      simp at touched outside
      tauto
    subst isSource
    unfold clear
    rw [Function.update_self]

/-! ## All operations -/

theorem Represents.clear {memory : Memory ι ν} {contents : Contents ι ν}
    (represents : Represents memory contents) {node : ν}
    (free : contents.IsFree node) :
    Represents (InlineDoublyLinkedList.clear memory (.node node))
      (contents.clear node) := by
  have untouched {cell : Address ι ν} (differs : cell ≠ .node node) :
      InlineDoublyLinkedList.clear memory (.node node) cell = memory cell :=
    Function.update_of_ne differs _ _
  refine ⟨?_, represents.apart, ?_⟩
  · intro list
    apply (represents.rings list).congr
    intro cell member
    apply untouched
    rintro rfl
    rcases mem_ring member with isSentinel | ⟨same, inside, equal⟩
    · cases isSentinel
    · cases equal
      exact free list inside
  · intro other otherFree notErased
    by_cases same : other = node
    · subst same
      unfold InlineDoublyLinkedList.clear
      rw [Function.update_self]
    · rw [untouched (by simpa using same)]
      apply represents.loose other otherFree
      unfold Contents.clear at notErased
      simpa [same] using notErased

/-- No operation dereferences a null pointer, and the links represent the sequences
again afterwards. -/
theorem exists_execute (debug : Bool) {memory : Memory ι ν}
    {contents : Contents ι ν} (represents : Represents memory contents)
    {op : Op ι ν} (allows : contents.Allows op)
    (linked : contents.MovesLinked op) :
    ∃ changed, execute debug memory op = some changed ∧
      Represents changed (contents.apply op) := by
  cases op with
  | insert list position node =>
      cases position with
      | none => exact exists_insert_end represents list allows.1
      | some position =>
          exact exists_insert_before represents allows.1
            (allows.2 position rfl)
  | pushBack list node => exact exists_insert_end represents list allows
  | pushFront list node => exact exists_pushFront represents list allows
  | erase node =>
      obtain ⟨list, member⟩ := allows
      exact exists_erase debug represents member
  | remove node =>
      obtain ⟨list, member⟩ := allows
      exact exists_erase debug represents member
  | moveConstruct target source =>
      obtain ⟨list, member⟩ := linked
      exact exists_moveLinks represents allows.1 member
  | moveAssign target source =>
      obtain ⟨list, member⟩ := linked
      exact exists_moveLinks represents allows.1 member
  | clear node => exact ⟨_, rfl, represents.clear allows⟩

omit [DecidableEq ι] [DecidableEq ν] in
theorem represents_initial :
    Represents (selfLinked : Memory ι ν) ({} : Contents ι ν) := by
  constructor
  · intro list
    exact ⟨segment_nil.mpr ⟨rfl, rfl⟩, List.nodup_singleton _⟩
  · intro list other _ node member
    cases member
  · intro node _ _
    rfl

theorem represents_of_run (debug : Bool) {state : State ι ν}
    (run : Run (step debug) Permitted {} state) :
    Represents state.memory state.contents := by
  induction run with
  | refl => exact represents_initial
  | tail _ permitted taken inductionHypothesis =>
      obtain ⟨changed, executed, represented⟩ :=
        exists_execute debug inductionHypothesis permitted.1 permitted.2
      unfold step at taken
      rw [executed] at taken
      cases taken
      exact represented

/-! ## Iterations -/

section Iterations

variable {state : State ι ν}

theorem forwards_eq (represents : Represents state.memory state.contents)
    (list : ι) {fuel : Nat}
    (enough : (state.addresses list).length < fuel) :
    forwards state.memory list fuel = some (state.addresses list) := by
  have ring := represents.rings list
  obtain ⟨first, -, next⟩ := ring.exists_next
  unfold forwards beginning
  rw [next]
  exact ring.walk_next next enough

theorem backwards_eq (represents : Represents state.memory state.contents)
    (list : ι) {fuel : Nat}
    (enough : (state.addresses list).length < fuel) :
    backwards state.memory list fuel =
      some (state.addresses list).reverse := by
  have ring := represents.rings list
  obtain ⟨last, -, previous⟩ := ring.exists_previous
  obtain ⟨first, -, next⟩ := ring.exists_next
  have rend : (state.memory first).previous = some (.sentinel list) :=
    ring.previous_of_next next
  unfold backwards beginning
  rw [previous, next, Option.bind_some, Option.bind_some, rend,
    Option.bind_some]
  exact ring.walk_previous previous enough

/-- The sentinel is enumerated in the place of the first node. -/
theorem constBackwards_eq (represents : Represents state.memory state.contents)
    {list : ι} {first : ν} {rest : List ν}
    (nonempty : state.contents.sequences list = first :: rest) {fuel : Nat}
    (enough : (state.addresses list).length < fuel) :
    constBackwards state.memory list fuel =
      some (.sentinel list :: (rest.map .node).reverse) := by
  have ring := represents.rings list
  rw [nonempty, List.map_cons] at ring
  have next := ring.next_base
  have rotated : LinkedRing state.memory (.node first)
      (rest.map .node ++ [.sentinel list]) :=
    LinkedRing.rotate ring
  unfold constBackwards beginning
  rw [next]
  have longEnough :
      (rest.map Address.node ++ [Address.sentinel list]).length < fuel := by
    simpa [State.addresses, nonempty] using enough
  simpa using
    rotated.walk_previous (ring.previous_of_next next) longEnough

theorem isEnumerated_of_represents
    (represents : Represents state.memory state.contents) :
    state.IsEnumerated := by
  constructor
  · intro list fuel enough
    exact forwards_eq represents list enough
  · intro list fuel enough
    exact backwards_eq represents list enough
  · intro list node member
    obtain ⟨before, after, -, -, -, ring, -⟩ := represents.exists_ring member
    have differs := ring.previous_ne (by simp)
    unfold isInList
    simpa using differs
  · intro node free notErased
    have links := represents.loose node free notErased
    refine ⟨links, ?_⟩
    unfold isInList
    rw [links]
    simp [selfLinked]

/-- From `crbegin` to `crend` only the empty list is right. -/
theorem isReversed_iff (represents : Represents state.memory state.contents)
    (list : ι) :
    state.IsReversed list ↔ state.contents.sequences list = [] := by
  constructor
  · intro reversed
    cases split : state.contents.sequences list with
    | nil => rfl
    | cons first rest =>
        have both := reversed _ (Nat.lt_succ_self _)
        rw [constBackwards_eq represents split (Nat.lt_succ_self _)] at both
        unfold State.addresses at both
        rw [split, ← List.map_reverse, ← List.map_reverse] at both
        have heads := congrArg List.head? (Option.some.inj both)
        obtain ⟨last, front, whole⟩ : ∃ last front,
            (first :: rest).reverse = last :: front :=
          List.exists_cons_of_ne_nil (by simp)
        rw [whole] at heads
        cases heads
  · intro empty fuel enough
    have ring := represents.rings list
    rw [empty] at ring
    have next := (segment_nil.mp ring.closed).1
    unfold constBackwards beginning State.addresses
    rw [next, empty]
    cases fuel with
    | zero => cases enough
    | succ fuel => simp [walk]

end Iterations

/-- As long as the nodes that are moved are in a list, all lists are their
sequences, except from `crbegin` to `crend`. -/
theorem isEnumerated_of_run (debug : Bool) {state : State ι ν}
    (run : Run (step debug) Permitted {} state) :
    state.IsEnumerated ∧
      ∀ list, state.IsReversed list ↔ state.contents.sequences list = [] :=
  have represents := represents_of_run debug run
  ⟨isEnumerated_of_represents represents, isReversed_iff represents⟩

/-- A node of a list is moved to another one, and is put in the list and removed
from it afterwards. -/
theorem isEnumerated_moved :
    ∃ state : State Unit Nat, Run (step true) Permitted {} state ∧
      state.contents.sequences () = [2, 3, 1] ∧ state.IsEnumerated := by
  have executed :
      ∃ state, Run (step true) Permitted ({} : State Unit Nat) state ∧
        decide (state.contents.sequences () = [2, 3, 1]) = true :=
    exists_run_of_executeAllowed
      [Op.pushBack () 1, Op.pushFront () 0, Op.moveAssign 2 0,
        Op.insert () (some 1) 3, Op.pushBack () 0, Op.remove 0,
        Op.clear 0]
      _ _ (by decide)
  obtain ⟨state, run, sequence⟩ := executed
  exact ⟨state, run, of_decide_eq_true sequence,
    (isEnumerated_of_run true run).1⟩

/-- From `crbegin` to `crend` of a list with a node the sentinel is
enumerated. -/
theorem isReversed_fails :
    ¬ ∀ state : State Unit Nat, Run (step false) Allowed {} state →
      state.IsEnumerated ∧ ∀ list, state.IsReversed list := by
  intro claimed
  have run : Run (step false) Allowed ({} : State Unit Nat) _ :=
    Run.single (.pushBack () 1) (fun _ => List.not_mem_nil) rfl
  have reversed := (claimed _ run).2 () 2 (by decide)
  revert reversed
  decide

/-! ## Nodes that are in no list -/

/-- When a node that is linked to itself is moved, the target is linked to it and
not to itself. -/
theorem not_isEnumerated_of_move (debug : Bool) {state next : State ι ν}
    {op : Op ι ν} {target source : ν}
    (moves : op = .moveConstruct target source ∨
      op = .moveAssign target source)
    (represents : Represents state.memory state.contents)
    (differs : target ≠ source) (freeTarget : state.contents.IsFree target)
    (freeSource : state.contents.IsFree source)
    (notErased : state.contents.erased source = false)
    (taken : step debug state op = some next) : ¬ next.IsEnumerated := by
  intro enumerated
  have links := represents.loose source freeSource notErased
  have apart : Address.node target ≠ (Address.node source : Address ι ν) := by
    simpa using differs
  have moved :
      moveLinks state.memory (.node target) (.node source) =
        some
          (clear
            (link (link state.memory (.node source) (.node target))
              (.node target) (.node source))
            (.node source)) :=
    moveLinks_eq (by rw [links]; rfl) (by rw [links]; rfl) apart apart
  have done :
      (moveLinks state.memory (.node target) (.node source)).map
          (fun memory =>
            { memory := memory
              contents := state.contents.move target source }) =
        some next := by
    rcases moves with rfl | rfl
    · exact taken
    · exact taken
  rw [moved] at done
  cases done
  have stillFree : (state.contents.move target source).IsFree target := by
    intro list
    show target ∉ (state.contents.sequences list).map _
    rw [map_replace (freeSource list)]
    exact freeTarget list
  have alone :=
    (enumerated.unlinked target stillFree (Function.update_self _ _ _)).1
  have previous := congrArg Links.previous alone
  simp only [clear] at previous
  rw [Function.update_of_ne apart, previous_link, if_neg apart,
    previous_link, if_pos rfl] at previous
  exact apart (Option.some.inj previous).symm

/-- A node that has not been in any list is moved. -/
theorem isEnumerated_fails_moved :
    ¬ ∀ state : State Unit Nat, Run (step false) Allowed {} state →
      state.IsEnumerated := by
  intro claimed
  have run : Run (step false) Allowed ({} : State Unit Nat) _ :=
    Run.single (.moveAssign 1 0)
      ⟨fun _ => List.not_mem_nil, by decide⟩ rfl
  have alone := (claimed _ run).unlinked 1 (by decide) rfl
  cases alone.2

end Nanos6.InlineDoublyLinkedList
