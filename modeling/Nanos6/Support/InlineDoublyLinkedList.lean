import Mathlib.Data.Fintype.Basic
import Nanos6.Foundation.LabelledRun
import Nanos6.Foundation.LinkedRing

/-!
# Doubly linked lists within their nodes

The links of an `InlineDoublyLinkedList` are in its nodes, and a sentinel closes
them to a ring.  The links of a node may be moved to another node.  The lists are
compared with sequences of nodes, on which the same operations are done.
-/

namespace Nanos6.InlineDoublyLinkedList

open Foundation

/-- Where there are links: in the sentinels of the lists and in the nodes. -/
inductive Address (ι ν : Type) where
  | sentinel (list : ι)
  | node (node : ν)
  deriving DecidableEq

abbrev Memory (ι ν : Type) : Type :=
  Address ι ν → Links (Address ι ν)

variable {ι ν : Type} [DecidableEq ι] [DecidableEq ν]

def setNext (memory : Memory ι ν)
    (address : Address ι ν) (value : Option (Address ι ν)) :
    Memory ι ν :=
  Function.update memory address { memory address with next := value }

def setPrevious (memory : Memory ι ν)
    (address : Address ι ν) (value : Option (Address ι ν)) :
    Memory ι ν :=
  Function.update memory address { memory address with previous := value }

/-- An assignment through a pointer, which must not be null. -/
def assignNext (memory : Memory ι ν)
    (pointer value : Option (Address ι ν)) :
    Option (Memory ι ν) :=
  pointer.map fun address => setNext memory address value

def assignPrevious (memory : Memory ι ν)
    (pointer value : Option (Address ι ν)) :
    Option (Memory ι ν) :=
  pointer.map fun address => setPrevious memory address value

/-! ## The links of a node -/

/-- The links of a node that has just been constructed. -/
def selfLinked (address : Address ι ν) : Links (Address ι ν) where
  previous := some address
  next := some address

def clear (memory : Memory ι ν)
    (address : Address ι ν) : Memory ι ν :=
  Function.update memory address (selfLinked address)

def isInList (memory : Memory ι ν)
    (address : Address ι ν) : Bool :=
  (memory address).previous != some address

/-- The move constructor and the move assignment do the same. -/
def moveLinks (memory : Memory ι ν)
    (this other : Address ι ν) :
    Option (Memory ι ν) :=
  let moved :=
    Function.update memory this
      { previous := (memory other).previous
        next := (memory other).next }
  (assignNext moved (moved this).previous (some this)).bind fun forward =>
    (assignPrevious forward (forward this).next (some this)).map
      fun relinked => clear relinked other

/-! ## The list -/

def insert (memory : Memory ι ν)
    (position : Address ι ν) (node : ν) :
    Option (Memory ι ν) :=
  let links := Address.node node
  let previous := (memory position).previous
  let written :=
    Function.update memory links
      { previous := previous
        next := some position }
  (assignNext written previous (some links)).bind fun forward =>
    assignPrevious forward (some position) (some links)

/-- `begin` of a list; its `end` is the sentinel. -/
def beginning (memory : Memory ι ν) (list : ι) :
    Option (Address ι ν) :=
  (memory (.sentinel list)).next

def pushBack (memory : Memory ι ν) (list : ι)
    (node : ν) : Option (Memory ι ν) :=
  insert memory (.sentinel list) node

def pushFront (memory : Memory ι ν) (list : ι)
    (node : ν) : Option (Memory ι ν) :=
  (beginning memory list).bind fun position => insert memory position node

/-- The links of an erased node are only changed without `NDEBUG`. -/
def erase (debug : Bool) (memory : Memory ι ν)
    (position : Address ι ν) : Option (Memory ι ν) :=
  let previous := (memory position).previous
  let next := (memory position).next
  (assignNext memory previous next).bind fun forward =>
    (assignPrevious forward next previous).map fun unlinked =>
      if debug then
        Function.update unlinked position { previous := none, next := none }
      else unlinked

def remove (debug : Bool) (memory : Memory ι ν)
    (node : ν) : Option (Memory ι ν) :=
  erase debug memory (.node node)

/-! ## Iterators -/

/-- The addresses from `begin` to `end`. -/
def forwards (memory : Memory ι ν) (list : ι)
    (fuel : Nat) : Option (List (Address ι ν)) :=
  (beginning memory list).bind fun first =>
    walk (fun address => (memory address).next) (.sentinel list) fuel first

/-- From `rbegin`, which is before the end, to `rend`, which is before the
beginning. -/
def backwards (memory : Memory ι ν) (list : ι)
    (fuel : Nat) : Option (List (Address ι ν)) :=
  (memory (.sentinel list)).previous.bind fun rbegin =>
    (beginning memory list).bind fun first =>
      (memory first).previous.bind fun rend =>
        walk (fun address => (memory address).previous) rend fuel rbegin

/-- From `crbegin`, which is the end, to `crend`, which is the beginning. -/
def constBackwards (memory : Memory ι ν) (list : ι)
    (fuel : Nat) : Option (List (Address ι ν)) :=
  (beginning memory list).bind fun crend =>
    walk (fun address => (memory address).previous) crend fuel
      (.sentinel list)

/-! ## The operations -/

inductive Op (ι ν : Type) where
  /-- Before a node, or at the end. -/
  | insert (list : ι) (position : Option ν) (node : ν)
  | pushBack (list : ι) (node : ν)
  | pushFront (list : ι) (node : ν)
  | erase (node : ν)
  | remove (node : ν)
  | moveConstruct (target source : ν)
  | moveAssign (target source : ν)
  | clear (node : ν)

def toAddress (list : ι) (position : Option ν) : Address ι ν :=
  position.elim (.sentinel list) .node

def execute (debug : Bool) (memory : Memory ι ν) :
    Op ι ν → Option (Memory ι ν)
  | .insert list position node => insert memory (toAddress list position) node
  | .pushBack list node => pushBack memory list node
  | .pushFront list node => pushFront memory list node
  | .erase node => erase debug memory (.node node)
  | .remove node => remove debug memory node
  | .moveConstruct target source | .moveAssign target source =>
      moveLinks memory (.node target) (.node source)
  | .clear node => some (clear memory (.node node))

/-! ## Sequences -/

/-- What the lists stand for. -/
structure Contents (ι ν : Type) where
  sequences : ι → List ν := fun _ => []
  /-- The nodes that have been erased and neither cleared nor moved since. -/
  erased : ν → Bool := fun _ => false

def insertBefore (position node : ν) : List ν → List ν
  | [] => [node]
  | first :: rest =>
      if first = position then node :: first :: rest
      else first :: insertBefore position node rest

namespace Contents

/-- The node is in no list. -/
def IsFree (contents : Contents ι ν) (node : ν) : Prop :=
  ∀ list, node ∉ contents.sequences list

def insert (contents : Contents ι ν) (list : ι) (node : ν)
    (change : List ν → List ν) : Contents ι ν where
  sequences :=
    Function.update contents.sequences list (change (contents.sequences list))
  erased := Function.update contents.erased node false

def erase (contents : Contents ι ν) (node : ν) : Contents ι ν where
  sequences := fun list => (contents.sequences list).erase node
  erased := Function.update contents.erased node true

/-- The target takes the place of the source. -/
def move (contents : Contents ι ν) (target source : ν) : Contents ι ν where
  sequences := fun list =>
    (contents.sequences list).map fun node =>
      if node = source then target else node
  erased :=
    Function.update (Function.update contents.erased source false) target
      false

def clear (contents : Contents ι ν) (node : ν) : Contents ι ν :=
  { contents with erased := Function.update contents.erased node false }

def apply (contents : Contents ι ν) : Op ι ν → Contents ι ν
  | .insert list (some position) node =>
      contents.insert list node (insertBefore position node)
  | .insert list none node | .pushBack list node =>
      contents.insert list node (· ++ [node])
  | .pushFront list node => contents.insert list node (node :: ·)
  | .erase node | .remove node => contents.erase node
  | .moveConstruct target source | .moveAssign target source =>
      contents.move target source
  | .clear node => contents.clear node

/-- What is required of the arguments of an operation. -/
def Allows (contents : Contents ι ν) : Op ι ν → Prop
  | .insert list position node =>
      contents.IsFree node ∧
        ∀ other ∈ position, other ∈ contents.sequences list
  | .pushBack _ node | .pushFront _ node | .clear node =>
      contents.IsFree node
  | .erase node | .remove node => ∃ list, node ∈ contents.sequences list
  | .moveConstruct target source | .moveAssign target source =>
      contents.IsFree target ∧ target ≠ source

/-- The nodes that are moved are in a list. -/
def MovesLinked (contents : Contents ι ν) : Op ι ν → Prop
  | .moveConstruct _ source | .moveAssign _ source =>
      ∃ list, source ∈ contents.sequences list
  | _ => True

section Decidable

variable [Fintype ι] (contents : Contents ι ν)

instance (node : ν) : Decidable (contents.IsFree node) :=
  inferInstanceAs (Decidable (∀ list, node ∉ contents.sequences list))

instance : DecidablePred contents.Allows
  | .insert list position node =>
      inferInstanceAs (Decidable (contents.IsFree node ∧
        ∀ other ∈ position, other ∈ contents.sequences list))
  | .pushBack _ node | .pushFront _ node | .clear node =>
      inferInstanceAs (Decidable (contents.IsFree node))
  | .erase node | .remove node =>
      inferInstanceAs (Decidable (∃ list, node ∈ contents.sequences list))
  | .moveConstruct target source | .moveAssign target source =>
      inferInstanceAs (Decidable (contents.IsFree target ∧ target ≠ source))

instance : DecidablePred contents.MovesLinked
  | .moveConstruct _ source | .moveAssign _ source =>
      inferInstanceAs (Decidable (∃ list, source ∈ contents.sequences list))
  | .insert .. | .pushBack .. | .pushFront .. | .erase .. | .remove ..
  | .clear .. => inferInstanceAs (Decidable True)

end Decidable

end Contents

/-! ## Runs -/

structure State (ι ν : Type) where
  memory : Memory ι ν := selfLinked
  contents : Contents ι ν := {}

/-- An operation is done on the lists and on the sequences. -/
def step (debug : Bool) (state : State ι ν) (op : Op ι ν) :
    Option (State ι ν) :=
  (execute debug state.memory op).map fun memory =>
    { memory := memory
      contents := state.contents.apply op }

def Allowed (state : State ι ν) (op : Op ι ν) : Prop :=
  state.contents.Allows op

def Permitted (state : State ι ν) (op : Op ι ν) : Prop :=
  state.contents.Allows op ∧ state.contents.MovesLinked op

instance [Fintype ι] (state : State ι ν) (op : Op ι ν) :
    Decidable (Permitted state op) :=
  inferInstanceAs (Decidable (_ ∧ _))

/-- The sequence of a list, as addresses. -/
def State.addresses (state : State ι ν) (list : ι) : List (Address ι ν) :=
  (state.contents.sequences list).map .node

/-- The lists are the sequences, from `begin` to `end` and from `rbegin` to `rend`,
and a node that is in no list is linked to itself. -/
structure State.IsEnumerated (state : State ι ν) : Prop where
  forwards : ∀ list fuel, (state.addresses list).length < fuel →
    forwards state.memory list fuel = some (state.addresses list)
  backwards : ∀ list fuel, (state.addresses list).length < fuel →
    backwards state.memory list fuel = some (state.addresses list).reverse
  linked : ∀ list, ∀ node ∈ state.contents.sequences list,
    isInList state.memory (.node node) = true
  unlinked : ∀ node, state.contents.IsFree node →
    state.contents.erased node = false →
      state.memory (.node node) = selfLinked (.node node) ∧
        isInList state.memory (.node node) = false

/-- The list is its sequence from `crbegin` to `crend`. -/
def State.IsReversed (state : State ι ν) (list : ι) : Prop :=
  ∀ fuel, (state.addresses list).length < fuel →
    constBackwards state.memory list fuel =
      some (state.addresses list).reverse

/-! ## The operations as changes of links -/

section Equations

variable {memory : Memory ι ν}

theorem next_setNext (address cell : Address ι ν)
    (value : Option (Address ι ν)) :
    (setNext memory address value cell).next =
      if cell = address then value else (memory cell).next := by
  unfold setNext
  by_cases same : cell = address
  · subst same
    simp
  · simp [same]

theorem previous_setNext (address cell : Address ι ν)
    (value : Option (Address ι ν)) :
    (setNext memory address value cell).previous =
      (memory cell).previous := by
  unfold setNext
  by_cases same : cell = address
  · subst same
    simp
  · simp [same]

theorem next_setPrevious (address cell : Address ι ν)
    (value : Option (Address ι ν)) :
    (setPrevious memory address value cell).next = (memory cell).next := by
  unfold setPrevious
  by_cases same : cell = address
  · subst same
    simp
  · simp [same]

theorem previous_setPrevious (address cell : Address ι ν)
    (value : Option (Address ι ν)) :
    (setPrevious memory address value cell).previous =
      if cell = address then value else (memory cell).previous := by
  unfold setPrevious
  by_cases same : cell = address
  · subst same
    simp
  · simp [same]

/-- A cell that takes its links from two others, which are then linked to it. -/
theorem link_link_eq {source cell target : Address ι ν}
    (notSource : cell ≠ source) (notTarget : cell ≠ target) :
    setPrevious
        (setNext
          (Function.update memory cell
            { previous := some source, next := some target })
          source (some cell))
        target (some cell) =
      link (link memory source cell) cell target := by
  funext other
  apply Links.ext
  · rw [previous_setPrevious, previous_setNext, previous_link, previous_link]
    by_cases isTarget : other = target
    · rw [if_pos isTarget, if_pos isTarget]
    · rw [if_neg isTarget, if_neg isTarget]
      by_cases isCell : other = cell
      · subst isCell
        simp
      · simp [isCell]
  · rw [next_setPrevious, next_setNext, next_link, next_link]
    by_cases isCell : other = cell
    · subst isCell
      rw [if_neg notSource, if_pos rfl, Function.update_self]
    · rw [if_neg isCell, Function.update_of_ne isCell]

theorem insert_eq {position source : Address ι ν} {node : ν}
    (before : (memory position).previous = some source)
    (notSource : Address.node node ≠ source)
    (notPosition : Address.node node ≠ position) :
    insert memory position node =
      some (link (link memory source (.node node)) (.node node) position) := by
  unfold insert assignNext assignPrevious
  rw [before]
  exact congrArg some (link_link_eq notSource notPosition)

theorem erase_eq {debug : Bool} {position source target : Address ι ν}
    (before : (memory position).previous = some source)
    (after : (memory position).next = some target) :
    erase debug memory position =
      some
        (if debug then
          Function.update (link memory source target) position
            { previous := none, next := none }
        else link memory source target) := by
  unfold erase assignNext assignPrevious
  rw [before, after]
  rfl

theorem moveLinks_eq {this other source target : Address ι ν}
    (before : (memory other).previous = some source)
    (after : (memory other).next = some target)
    (notSource : this ≠ source) (notTarget : this ≠ target) :
    moveLinks memory this other =
      some
        (clear (link (link memory source this) this target) other) := by
  have links :
      memory other = { previous := some source, next := some target } :=
    Links.ext before after
  unfold moveLinks assignNext assignPrevious
  rw [links]
  simp only [Function.update_self, Option.map_some, Option.bind_some]
  have kept :
      (setNext
        (Function.update memory this
          { previous := some source, next := some target })
        source (some this) this).next = some target := by
    rw [next_setNext, if_neg notSource, Function.update_self]
  rw [kept, Option.map_some, link_link_eq notSource notTarget]
  rfl

end Equations

end Nanos6.InlineDoublyLinkedList
