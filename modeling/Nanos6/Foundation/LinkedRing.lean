import Mathlib.Data.List.Chain
import Mathlib.Data.List.Nodup
import Mathlib.Logic.Function.Basic

/-!
# Rings of linked cells

Every cell of a memory has a link to a previous and to a next cell.  A ring is a
sequence of different cells that are linked in both directions, the last one to the
first one.  It may be read off from any of its cells, and all that is ever done to
it is to link one cell to another.
-/

namespace Foundation

universe u

variable {Address : Type u}

@[ext]
structure Links (Address : Type u) where
  previous : Option Address
  next : Option Address
  deriving DecidableEq

/-- One cell is linked to another one, in both directions. -/
def Adjacent (memory : Address → Links Address) (first second : Address) :
    Prop :=
  (memory first).next = some second ∧ (memory second).previous = some first

/-- The cells are linked one after another between two others. -/
def Segment (memory : Address → Links Address) (first : Address)
    (cells : List Address) (last : Address) : Prop :=
  List.IsChain (Adjacent memory) (first :: (cells ++ [last]))

/-- The cells after the base lead back to it. -/
structure LinkedRing (memory : Address → Links Address) (base : Address)
    (cells : List Address) : Prop where
  closed : Segment memory base cells base
  distinct : (base :: cells).Nodup

section Segments

variable {memory : Address → Links Address}

theorem segment_nil {first last : Address} :
    Segment memory first [] last ↔ Adjacent memory first last :=
  List.isChain_pair

theorem segment_cons {first second last : Address} {cells : List Address} :
    Segment memory first (second :: cells) last ↔
      Adjacent memory first second ∧ Segment memory second cells last :=
  List.isChain_cons_cons

theorem segment_append {first middle last : Address}
    {before after : List Address} :
    Segment memory first (before ++ middle :: after) last ↔
      Segment memory first before middle ∧
        Segment memory middle after last := by
  unfold Segment
  rw [List.append_assoc, List.cons_append]
  exact List.isChain_cons_split

/-- The cell that is linked to the last one. -/
theorem Segment.previous {first last : Address} {cells : List Address}
    (segment : Segment memory first cells last) :
    (memory last).previous =
      some ((first :: cells).getLast (List.cons_ne_nil _ _)) := by
  induction cells generalizing first with
  | nil => exact (segment_nil.mp segment).2
  | cons second cells inductionHypothesis =>
      rw [List.getLast_cons (List.cons_ne_nil _ _)]
      exact inductionHypothesis (segment_cons.mp segment).2

/-- Cells that keep their links keep a segment. -/
theorem Segment.congr {other : Address → Links Address}
    {first last : Address} {cells : List Address}
    (segment : Segment memory first cells last)
    (sameNext : ∀ cell ∈ first :: cells,
      (other cell).next = (memory cell).next)
    (samePrevious : ∀ cell ∈ cells ++ [last],
      (other cell).previous = (memory cell).previous) :
    Segment other first cells last := by
  induction cells generalizing first with
  | nil =>
      obtain ⟨next, previous⟩ := segment_nil.mp segment
      apply segment_nil.mpr
      constructor
      · rw [sameNext first List.mem_cons_self, next]
      · rw [samePrevious last (by simp), previous]
  | cons second cells inductionHypothesis =>
      obtain ⟨⟨next, previous⟩, rest⟩ := segment_cons.mp segment
      apply segment_cons.mpr
      refine ⟨⟨?_, ?_⟩, ?_⟩
      · rw [sameNext first List.mem_cons_self, next]
      · rw [samePrevious second (by simp), previous]
      · apply inductionHypothesis rest
        · intro cell member
          exact sameNext cell (List.mem_cons_of_mem _ member)
        · intro cell member
          exact samePrevious cell (List.mem_cons_of_mem _ member)

omit memory in
theorem perm_rotate (base other : Address) (before after : List Address) :
    (base :: (before ++ other :: after)).Perm
      (other :: (after ++ base :: before)) := by
  rw [← List.cons_append, ← List.cons_append]
  exact List.perm_append_comm

/-- A ring may be read off from any of its cells. -/
theorem LinkedRing.rotate {base other : Address} {before after : List Address}
    (ring : LinkedRing memory base (before ++ other :: after)) :
    LinkedRing memory other (after ++ base :: before) := by
  obtain ⟨toOther, toBase⟩ := segment_append.mp ring.closed
  exact ⟨segment_append.mpr ⟨toBase, toOther⟩,
    (perm_rotate base other before after).nodup ring.distinct⟩

/-- The next cell of the base begins the walk. -/
theorem LinkedRing.next_base {base : Address} {cells : List Address}
    (ring : LinkedRing memory base cells) :
    (memory base).next = (cells ++ [base]).head? := by
  cases cells with
  | nil => exact (segment_nil.mp ring.closed).1
  | cons first rest => exact (segment_cons.mp ring.closed).1.1

theorem LinkedRing.previous_base {base : Address} {cells : List Address}
    (ring : LinkedRing memory base cells) :
    (memory base).previous = (cells.reverse ++ [base]).head? := by
  rw [ring.closed.previous, ← List.reverse_cons, List.head?_reverse,
    List.getLast?_eq_getLast_of_ne_nil]

theorem LinkedRing.exists_previous {base : Address} {cells : List Address}
    (ring : LinkedRing memory base cells) :
    ∃ source ∈ base :: cells, (memory base).previous = some source :=
  ⟨_, List.getLast_mem _, ring.closed.previous⟩

theorem LinkedRing.exists_next {base : Address} {cells : List Address}
    (ring : LinkedRing memory base cells) :
    ∃ target ∈ base :: cells, (memory base).next = some target := by
  cases cells with
  | nil =>
      exact ⟨base, List.mem_cons_self, (segment_nil.mp ring.closed).1⟩
  | cons first rest =>
      exact ⟨first, by simp, (segment_cons.mp ring.closed).1.1⟩

theorem LinkedRing.previous_of_next {base target : Address}
    {cells : List Address} (ring : LinkedRing memory base cells)
    (next : (memory base).next = some target) :
    (memory target).previous = some base := by
  cases cells with
  | nil =>
      have linked := segment_nil.mp ring.closed
      rw [linked.1] at next
      cases next
      exact linked.2
  | cons first rest =>
      have linked := (segment_cons.mp ring.closed).1
      rw [linked.1] at next
      cases next
      exact linked.2

/-- A base that is not alone is not linked to itself. -/
theorem LinkedRing.previous_ne {base : Address} {cells : List Address}
    (ring : LinkedRing memory base cells) (nonempty : cells ≠ []) :
    (memory base).previous ≠ some base := by
  intro alone
  have previous := ring.closed.previous
  rw [alone, List.getLast_cons nonempty] at previous
  apply (List.nodup_cons.mp ring.distinct).1
  rw [Option.some.inj previous]
  exact List.getLast_mem nonempty

theorem LinkedRing.congr {other : Address → Links Address} {base : Address}
    {cells : List Address} (ring : LinkedRing memory base cells)
    (same : ∀ cell ∈ base :: cells, other cell = memory cell) :
    LinkedRing other base cells := by
  refine ⟨ring.closed.congr ?_ ?_, ring.distinct⟩
  · intro cell member
    rw [same cell member]
  · intro cell member
    rw [same cell (by simp at member ⊢; tauto)]

end Segments

section Links

variable [DecidableEq Address] (memory : Address → Links Address)

/-- Link one cell to another, in both directions. -/
def link (first second : Address) : Address → Links Address :=
  let forward :=
    Function.update memory first { memory first with next := some second }
  Function.update forward second
    { forward second with previous := some first }

theorem next_link (first second cell : Address) :
    (link memory first second cell).next =
      if cell = first then some second else (memory cell).next := by
  unfold link
  by_cases isSecond : cell = second
  · subst isSecond
    by_cases isFirst : cell = first
    · subst isFirst
      simp
    · simp [isFirst]
  · by_cases isFirst : cell = first
    · subst isFirst
      simp [isSecond]
    · simp [isFirst, isSecond]

theorem previous_link (first second cell : Address) :
    (link memory first second cell).previous =
      if cell = second then some first else (memory cell).previous := by
  unfold link
  by_cases isSecond : cell = second
  · subst isSecond
    simp
  · by_cases isFirst : cell = first
    · subst isFirst
      simp [isSecond]
    · simp [isFirst, isSecond]

theorem link_of_ne {first second cell : Address} (notFirst : cell ≠ first)
    (notSecond : cell ≠ second) :
    link memory first second cell = memory cell := by
  unfold link
  rw [Function.update_of_ne notSecond, Function.update_of_ne notFirst]

theorem adjacent_link (first second : Address) :
    Adjacent (link memory first second) first second := by
  constructor
  · rw [next_link, if_pos rfl]
  · rw [previous_link, if_pos rfl]

variable {memory}

/-- A segment that uses neither side of a new link. -/
theorem Segment.link {first last source target : Address}
    {cells : List Address} (segment : Segment memory first cells last)
    (notSource : source ∉ first :: cells)
    (notTarget : target ∉ cells ++ [last]) :
    Segment (link memory source target) first cells last := by
  apply segment.congr
  · intro cell member
    rw [next_link, if_neg]
    rintro rfl
    exact notSource member
  · intro cell member
    rw [previous_link, if_neg]
    rintro rfl
    exact notTarget member

/-- The end of a segment is linked to another cell. -/
theorem Segment.retarget {first last source target : Address}
    {cells : List Address} (segment : Segment memory first cells last)
    (distinct : (first :: cells).Nodup) (absent : target ∉ cells)
    (isLast : (first :: cells).getLast (List.cons_ne_nil _ _) = source) :
    Segment (Foundation.link memory source target) first cells target := by
  induction cells generalizing first with
  | nil =>
      have same : first = source := isLast
      subst same
      exact segment_nil.mpr (adjacent_link memory first target)
  | cons second cells inductionHypothesis =>
      obtain ⟨⟨next, previous⟩, rest⟩ := segment_cons.mp segment
      obtain ⟨firstAbsent, restDistinct⟩ := List.nodup_cons.mp distinct
      rw [List.getLast_cons (List.cons_ne_nil _ _)] at isLast
      have sourceMember : source ∈ second :: cells := by
        rw [← isLast]
        exact List.getLast_mem _
      apply segment_cons.mpr
      refine ⟨⟨?_, ?_⟩, ?_⟩
      · rw [next_link, if_neg, next]
        rintro rfl
        exact firstAbsent sourceMember
      · rw [previous_link, if_neg, previous]
        rintro rfl
        exact absent List.mem_cons_self
      · exact inductionHypothesis rest restDistinct
          (fun member => absent (List.mem_cons_of_mem _ member)) isLast

/-- A new cell is put before the base. -/
theorem LinkedRing.insert {base source cell : Address} {cells : List Address}
    (ring : LinkedRing memory base cells) (absent : cell ∉ base :: cells)
    (before : (memory base).previous = some source) :
    LinkedRing (Foundation.link (Foundation.link memory source cell) cell base) base
      (cells ++ [cell]) := by
  have isLast :
      (base :: cells).getLast (List.cons_ne_nil _ _) = source := by
    have previous := ring.closed.previous
    rw [before] at previous
    exact (Option.some.inj previous).symm
  have absentCells : cell ∉ cells := fun member =>
    absent (List.mem_cons_of_mem _ member)
  have differs : base ≠ cell := by
    rintro rfl
    exact absent List.mem_cons_self
  constructor
  · apply segment_append.mpr
    constructor
    · apply (ring.closed.retarget ring.distinct absentCells isLast).link absent
      intro member
      rcases List.mem_append.mp member with inside | isCell
      · exact (List.nodup_cons.mp ring.distinct).1 inside
      · exact differs (List.mem_singleton.mp isCell)
    · exact segment_nil.mpr (adjacent_link _ cell base)
  · rw [← List.cons_append]
    apply List.Nodup.append ring.distinct (List.nodup_singleton cell)
    intro other member isCell
    rw [List.mem_singleton.mp isCell] at member
    exact absent member

/-- The base is taken out of the ring. -/
theorem LinkedRing.erase {base source target : Address} {cells : List Address}
    (ring : LinkedRing memory base (target :: cells))
    (before : (memory base).previous = some source) :
    LinkedRing (Foundation.link memory source target) target cells := by
  obtain ⟨-, rest⟩ := segment_cons.mp ring.closed
  obtain ⟨-, distinct⟩ := List.nodup_cons.mp ring.distinct
  have isLast :
      (target :: cells).getLast (List.cons_ne_nil _ _) = source := by
    have previous := rest.previous
    rw [before] at previous
    exact (Option.some.inj previous).symm
  exact ⟨rest.retarget distinct (List.nodup_cons.mp distinct).1 isLast,
    distinct⟩

/-- Another cell takes the place of the base, which is not alone. -/
theorem LinkedRing.replace {base source target cell : Address}
    {cells : List Address} (ring : LinkedRing memory base (target :: cells))
    (absent : cell ∉ target :: cells)
    (before : (memory base).previous = some source) :
    LinkedRing (Foundation.link (Foundation.link memory source cell) cell target)
      cell (target :: cells) := by
  obtain ⟨-, rest⟩ := segment_cons.mp ring.closed
  obtain ⟨-, distinct⟩ := List.nodup_cons.mp ring.distinct
  have isLast :
      (target :: cells).getLast (List.cons_ne_nil _ _) = source := by
    have previous := rest.previous
    rw [before] at previous
    exact (Option.some.inj previous).symm
  refine ⟨segment_cons.mpr ⟨adjacent_link _ cell target, ?_⟩,
    List.nodup_cons.mpr ⟨absent, distinct⟩⟩
  apply (rest.retarget distinct
    (fun member => absent (List.mem_cons_of_mem _ member)) isLast).link absent
  intro member
  rcases List.mem_append.mp member with inside | isCell
  · exact (List.nodup_cons.mp distinct).1 inside
  · rw [List.mem_singleton.mp isCell] at absent
    exact absent List.mem_cons_self

/-- The rings without the base and with another cell in its place, read off from a
cell that stays. -/
theorem LinkedRing.erase_rotate {base source target other : Address}
    {left right : List Address}
    (ring : LinkedRing memory base (left ++ other :: right))
    (before : (memory base).previous = some source)
    (after : (memory base).next = some target) :
    LinkedRing (Foundation.link memory source target) other
      (right ++ left) := by
  cases left with
  | nil =>
      have next := (segment_cons.mp ring.closed).1.1
      rw [after] at next
      cases next
      rw [List.append_nil]
      exact ring.erase before
  | cons first left =>
      have next := (segment_cons.mp ring.closed).1.1
      rw [after] at next
      cases next
      exact (ring.erase before).rotate

theorem LinkedRing.replace_rotate {base source target other cell : Address}
    {left right : List Address}
    (ring : LinkedRing memory base (left ++ other :: right))
    (absent : cell ∉ left ++ other :: right)
    (before : (memory base).previous = some source)
    (after : (memory base).next = some target) :
    LinkedRing
      (Foundation.link (Foundation.link memory source cell) cell target) other
      (right ++ cell :: left) := by
  obtain ⟨first, rest, whole⟩ :
      ∃ first rest, left ++ other :: right = first :: rest :=
    List.exists_cons_of_ne_nil (by simp)
  rw [whole] at ring absent
  have next := (segment_cons.mp ring.closed).1.1
  rw [after] at next
  cases next
  have replaced := ring.replace absent before
  rw [← whole] at replaced
  exact replaced.rotate

end Links

/-! ## Walks -/

/-- The cells from a position on, up to one that is not included. -/
def walk [DecidableEq Address] (follow : Address → Option Address)
    (last : Address) : Nat → Address → Option (List Address)
  | 0, _ => none
  | fuel + 1, position =>
      if position = last then some []
      else
        (follow position).bind fun following =>
          (walk follow last fuel following).map (position :: ·)

theorem walk_of_isChain [DecidableEq Address]
    {follow : Address → Option Address} {start last : Address}
    (cells : List Address) {fuel : Nat}
    (chain : List.IsChain (fun first second => follow first = some second)
      (cells ++ [last]))
    (begins : (cells ++ [last]).head? = some start)
    (absent : last ∉ cells) (enough : cells.length < fuel) :
    walk follow last fuel start = some cells := by
  induction cells generalizing start fuel with
  | nil =>
      cases fuel with
      | zero => cases enough
      | succ fuel =>
          have same : last = start := Option.some.inj begins
          rw [walk, if_pos same.symm]
  | cons first rest inductionHypothesis =>
      cases fuel with
      | zero => cases enough
      | succ fuel =>
          have same : first = start := Option.some.inj begins
          subst same
          have differs : first ≠ last := by
            rintro rfl
            exact absent List.mem_cons_self
          obtain ⟨following, begun⟩ :
              ∃ following, (rest ++ [last]).head? = some following := by
            cases rest with
            | nil => exact ⟨last, rfl⟩
            | cons second rest => exact ⟨second, rfl⟩
          have continued :
              follow first = some following ∧
                List.IsChain (fun first second => follow first = some second)
                  (rest ++ [last]) := by
            cases rest with
            | nil =>
                cases begun
                exact List.isChain_cons_cons.mp chain
            | cons second rest =>
                cases begun
                exact List.isChain_cons_cons.mp chain
          rw [walk, if_neg differs, continued.1, Option.bind_some,
            inductionHypothesis continued.2 begun
              (fun member => absent (List.mem_cons_of_mem _ member))
              (by simpa using enough)]
          rfl

namespace LinkedRing

variable [DecidableEq Address] {memory : Address → Links Address}
  {base : Address} {cells : List Address}

/-- The links to the next cells enumerate the ring. -/
theorem walk_next (ring : LinkedRing memory base cells) {start : Address}
    (begins : (memory base).next = some start) {fuel : Nat}
    (enough : cells.length < fuel) :
    walk (fun cell => (memory cell).next) base fuel start = some cells := by
  have chain :
      List.IsChain (Adjacent memory) (cells ++ [base]) := ring.closed.tail
  apply walk_of_isChain
  · exact chain.imp fun _ _ linked => linked.1
  · rw [← ring.next_base, begins]
  · exact (List.nodup_cons.mp ring.distinct).1
  · exact enough

omit [DecidableEq Address] in
/-- The links to the previous cells of a segment, read backwards. -/
theorem isChain_reverse {path : List Address}
    (chain : List.IsChain (Adjacent memory) path) :
    List.IsChain
      (fun first second => (memory first).previous = some second)
      path.reverse := by
  rw [List.isChain_reverse]
  exact chain.imp fun _ _ linked => linked.2

/-- The links to the previous cells enumerate the ring backwards. -/
theorem walk_previous (ring : LinkedRing memory base cells) {start : Address}
    (begins : (memory base).previous = some start) {fuel : Nat}
    (enough : cells.length < fuel) :
    walk (fun cell => (memory cell).previous) base fuel start =
      some cells.reverse := by
  have chain : List.IsChain (Adjacent memory) (base :: cells) := by
    have whole : List.IsChain (Adjacent memory) (base :: cells ++ [base]) :=
      ring.closed
    exact whole.left_of_append
  apply walk_of_isChain
  · rw [← List.reverse_cons]
    exact isChain_reverse chain
  · rw [← ring.previous_base, begins]
  · rw [List.mem_reverse]
    exact (List.nodup_cons.mp ring.distinct).1
  · rw [List.length_reverse]
    exact enough

end LinkedRing

end Foundation
