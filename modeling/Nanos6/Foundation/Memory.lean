import Mathlib.Data.List.Pairwise
import Mathlib.Order.Basic
import Mathlib.Tactic.Ring
import Nanos6.Foundation.Pending

/-!
# Ranges of memory

A range is a base address with a size.  Which of the ranges of a list own a byte
is counted, so that the same argument shows that ranges are disjoint and that
nothing is lost when one of them is cut or passed on: if no byte is counted more
than once, the ranges are disjoint.

A list of chunks can be kept in the chunks themselves, each of which holds the
address of the next one.
-/

namespace Foundation

structure Range where
  base : Nat
  size : Nat
  deriving DecidableEq, Repr

namespace Range

/-- The first address after the range. -/
def limit (range : Range) : Nat :=
  range.base + range.size

def Contains (range : Range) (byte : Nat) : Prop :=
  range.base ≤ byte ∧ byte < range.limit

instance (range : Range) (byte : Nat) :
    Decidable (range.Contains byte) :=
  inferInstanceAs (Decidable (_ ∧ _))

def IsWithin (inner outer : Range) : Prop :=
  outer.base ≤ inner.base ∧ inner.limit ≤ outer.limit

def Disjoint (first second : Range) : Prop :=
  ∀ byte, first.Contains byte → ¬ second.Contains byte

/-- One of them is empty or ends before the other one starts. -/
def isApart (first second : Range) : Bool :=
  first.size == 0 || second.size == 0 || first.limit ≤ second.base ||
    second.limit ≤ first.base

theorem disjoint_of_isApart {first second : Range}
    (apart : first.isApart second = true) : first.Disjoint second := by
  intro byte inFirst inSecond
  simp only [isApart, Bool.or_eq_true, beq_iff_eq, decide_eq_true_eq] at apart
  unfold Contains limit at inFirst inSecond
  unfold limit at apart
  omega

/-- How often the range owns the byte. -/
def covers (range : Range) (byte : Nat) : Nat :=
  if range.base ≤ byte ∧ byte < range.base + range.size then 1 else 0

theorem covers_of_contains {range : Range} {byte : Nat}
    (contains : range.Contains byte) : range.covers byte = 1 :=
  if_pos contains

theorem covers_of_not_contains {range : Range} {byte : Nat}
    (outside : ¬ range.Contains byte) : range.covers byte = 0 :=
  if_neg outside

/-- A range is cut in two. -/
theorem covers_split (base first second byte : Nat) :
    Range.covers ⟨base, first⟩ byte + Range.covers ⟨base + first, second⟩ byte =
      Range.covers ⟨base, first + second⟩ byte := by
  simp only [covers]
  split <;> split <;> split <;> omega

theorem covers_le_of_isWithin {inner outer : Range}
    (within : inner.IsWithin outer) (byte : Nat) :
    inner.covers byte ≤ outer.covers byte := by
  unfold IsWithin limit at within
  simp only [covers]
  split <;> split <;> omega

theorem covers_empty (base byte : Nat) :
    Range.covers ⟨base, 0⟩ byte = 0 := by
  simp only [covers]
  split <;> omega

end Range

/-- How many of the ranges own the byte. -/
def coverage (ranges : List Range) (byte : Nat) : Nat :=
  total (fun range => range.covers byte) ranges

@[simp]
theorem coverage_nil (byte : Nat) : coverage [] byte = 0 :=
  rfl

theorem coverage_cons (range : Range) (ranges : List Range)
    (byte : Nat) :
    coverage (range :: ranges) byte =
      range.covers byte + coverage ranges byte := by
  simp [coverage, total]

theorem coverage_append (first second : List Range) (byte : Nat) :
    coverage (first ++ second) byte =
      coverage first byte + coverage second byte :=
  total_append ..

theorem coverage_flatMap {Owner : Type*} (ranges : Owner → List Range)
    (owners : List Owner) (byte : Nat) :
    coverage (owners.flatMap ranges) byte =
      total (fun owner => coverage (ranges owner) byte) owners := by
  induction owners with
  | nil => rfl
  | cons owner rest inductionHypothesis =>
      rw [List.flatMap_cons, coverage_append, inductionHypothesis]
      simp [total]

theorem covers_le_coverage {range : Range} {ranges : List Range}
    (member : range ∈ ranges) (byte : Nat) :
    range.covers byte ≤ coverage ranges byte := by
  induction ranges with
  | nil => cases member
  | cons head rest inductionHypothesis =>
      rw [coverage_cons]
      rcases List.mem_cons.mp member with rfl | later
      · exact Nat.le_add_right ..
      · exact (inductionHypothesis later).trans (Nat.le_add_left ..)

/-- A range that is apart from all of them owns no byte of theirs. -/
theorem coverage_eq_zero {range : Range} {ranges : List Range}
    {byte : Nat}
    (apart : ∀ other ∈ ranges, range.isApart other = true)
    (contains : range.Contains byte) : coverage ranges byte = 0 := by
  induction ranges with
  | nil => rfl
  | cons head rest inductionHypothesis =>
      have outside := Range.disjoint_of_isApart
        (apart head List.mem_cons_self) byte contains
      rw [coverage_cons, Range.covers_of_not_contains outside, Nat.zero_add]
      exact inductionHypothesis fun other member =>
        apart other (List.mem_cons_of_mem _ member)

/-- Ranges are disjoint if no byte is owned twice. -/
theorem pairwise_disjoint {ranges : List Range}
    (once : ∀ byte, coverage ranges byte ≤ 1) :
    ranges.Pairwise Range.Disjoint := by
  induction ranges with
  | nil => exact List.Pairwise.nil
  | cons head rest inductionHypothesis =>
      refine List.pairwise_cons.mpr ⟨?_, inductionHypothesis ?_⟩
      · intro other member byte inHead inOther
        have bound := once byte
        have counted := covers_le_coverage member byte
        rw [coverage_cons, Range.covers_of_contains inHead] at bound
        rw [Range.covers_of_contains inOther] at counted
        omega
      · intro byte
        have bound := once byte
        rw [coverage_cons] at bound
        omega

/-! ## Ranges of several owners -/

/-- The items of one owner are replaced, and one is added behind them. -/
theorem mem_update_concat {Owner Item : Type*} [DecidableEq Owner]
    {items : Owner → List Item} {owner other : Owner} {initial : List Item}
    {added item : Item} :
    item ∈ Function.update items owner (initial ++ [added]) other ↔
      (other = owner ∧ (item ∈ initial ∨ item = added)) ∨
        (other ≠ owner ∧ item ∈ items other) := by
  by_cases same : other = owner
  · subst same
    simp
  · simp [same]

/-- No byte is in two of the ranges. -/
structure Apart {Owner : Type*} (ranges : Owner → List Range) : Prop where
  within : ∀ owner, (ranges owner).Pairwise Range.Disjoint
  across : ∀ first second, first ≠ second →
    ∀ range ∈ ranges first, ∀ other ∈ ranges second, range.Disjoint other

namespace Apart

variable {Owner : Type*} {ranges : Owner → List Range}

/-- An owner gets a range that is apart from all the others. -/
theorem add [DecidableEq Owner] (apart : Apart ranges) (owner : Owner)
    {range : Range}
    (new : ∀ other, ∀ earlier ∈ ranges other, earlier.Disjoint range) :
    Apart (Function.update ranges owner (ranges owner ++ [range])) := by
  refine ⟨fun other => ?_, fun first second differ range' inFirst other
    inSecond => ?_⟩
  · by_cases same : other = owner
    · subst same
      rw [Function.update_self]
      refine List.pairwise_append.mpr
        ⟨apart.within other, List.pairwise_singleton _ _, ?_⟩
      intro earlier member added isNew
      rw [List.mem_singleton.mp isNew]
      exact new other earlier member
    · rw [Function.update_of_ne same]
      exact apart.within other
  · have old : ∀ {owned : Owner} {earlier : Range},
        earlier ∈ Function.update ranges owner (ranges owner ++ [range])
            owned →
          earlier ∈ ranges owned ∨ (owned = owner ∧ earlier = range) := by
      intro owned earlier member
      rcases mem_update_concat.mp member with
        ⟨rfl, before | added⟩ | ⟨-, before⟩
      · exact Or.inl before
      · exact Or.inr ⟨rfl, added⟩
      · exact Or.inl before
    rcases old inFirst with before | ⟨rfl, rfl⟩
    · rcases old inSecond with earlier | ⟨rfl, rfl⟩
      · exact apart.across first second differ range' before other earlier
      · exact new first range' before
    · rcases old inSecond with earlier | ⟨rfl, -⟩
      · intro byte inNew inOther
        exact new second other earlier byte inOther inNew
      · exact absurd rfl differ

/-- A byte has at most one owner. -/
theorem eq_of_contains (apart : Apart ranges) {first second : Owner}
    {range other : Range} (inFirst : range ∈ ranges first)
    (inSecond : other ∈ ranges second) {byte : Nat}
    (contains : range.Contains byte) (also : other.Contains byte) :
    first = second := by
  by_contra differ
  exact apart.across first second differ range inFirst other inSecond byte
    contains also

end Apart

/-! ## Chunks of a range -/

/-- So many addresses at the same distance. -/
def chunksFrom (start : Nat) (size : Nat) : Nat → List Nat
  | 0 => []
  | count + 1 => start :: chunksFrom (start + size) size count

/-- The chunks own the bytes of the range that they are cut from. -/
theorem coverage_chunksFrom (start : Nat) (size count : Nat)
    (byte : Nat) :
    coverage ((chunksFrom start size count).map fun chunk => ⟨chunk, size⟩)
      byte = Range.covers ⟨start, count * size⟩ byte := by
  induction count generalizing start with
  | zero =>
      rw [Nat.zero_mul, Range.covers_empty]
      rfl
  | succ count inductionHypothesis =>
      rw [chunksFrom, List.map_cons, coverage_cons, inductionHypothesis,
        Range.covers_split, Nat.succ_mul, Nat.add_comm]

theorem mem_chunksFrom {start chunk : Nat} {size count : Nat}
    (member : chunk ∈ chunksFrom start size count) :
    ∃ index, index < count ∧ chunk = start + index * size := by
  induction count generalizing start with
  | zero => cases member
  | succ count inductionHypothesis =>
      rcases List.mem_cons.mp member with rfl | later
      · exact ⟨0, Nat.succ_pos _, by rw [Nat.zero_mul, Nat.add_zero]⟩
      · obtain ⟨index, below, rfl⟩ := inductionHypothesis later
        refine ⟨index + 1, Nat.succ_lt_succ below, ?_⟩
        rw [Nat.succ_mul, Nat.add_assoc, Nat.add_comm size]

theorem length_chunksFrom (start size count : Nat) :
    (chunksFrom start size count).length = count := by
  induction count generalizing start with
  | zero => rfl
  | succ count inductionHypothesis =>
      rw [chunksFrom, List.length_cons, inductionHypothesis]

theorem nodup_chunksFrom (start count : Nat) {size : Nat}
    (positive : 0 < size) : (chunksFrom start size count).Nodup := by
  induction count generalizing start with
  | zero => exact List.nodup_nil
  | succ count inductionHypothesis =>
      refine List.nodup_cons.mpr ⟨?_, inductionHypothesis _⟩
      intro member
      obtain ⟨index, -, equal⟩ := mem_chunksFrom member
      omega

/-- A chunk starts in the range that the chunks are cut from. -/
theorem contains_chunksFrom {start chunk size count : Nat}
    (positive : 0 < size) (member : chunk ∈ chunksFrom start size count) :
    Range.Contains ⟨start, count * size⟩ chunk := by
  obtain ⟨index, below, rfl⟩ := mem_chunksFrom member
  refine ⟨Nat.le_add_right .., Nat.add_lt_add_left ?_ _⟩
  exact Nat.mul_lt_mul_of_pos_right below positive

/-! ## Linked chunks -/

/-- Each chunk holds the address of the next one, and the last one holds 0. -/
def Linked (memory : Nat → Nat) : Nat → List Nat → Prop
  | top, [] => top = 0
  | top, chunk :: rest =>
      top = chunk ∧ chunk ≠ 0 ∧ Linked memory (memory chunk) rest

namespace Linked

variable {memory after : Nat → Nat} {top : Nat}
  {chunks : List Nat}

/-- Only what the chunks themselves hold matters. -/
theorem congr (linked : Linked memory top chunks)
    (same : ∀ chunk ∈ chunks, after chunk = memory chunk) :
    Linked after top chunks := by
  induction chunks generalizing top with
  | nil => exact linked
  | cons chunk rest inductionHypothesis =>
      obtain ⟨isTop, isChunk, tail⟩ := linked
      refine ⟨isTop, isChunk, ?_⟩
      rw [same chunk List.mem_cons_self]
      exact inductionHypothesis tail fun other member =>
        same other (List.mem_cons_of_mem _ member)

theorem store (linked : Linked memory top chunks) {address : Nat}
    (value : Nat) (outside : address ∉ chunks) :
    Linked (Function.update memory address value) top chunks := by
  refine linked.congr fun chunk member => Function.update_of_ne ?_ ..
  rintro rfl
  exact outside member

/-- A chunk is put in front. -/
theorem push (linked : Linked memory top chunks) {chunk : Nat}
    (isChunk : chunk ≠ 0) (outside : chunk ∉ chunks) :
    Linked (Function.update memory chunk top) chunk (chunk :: chunks) := by
  refine ⟨rfl, isChunk, ?_⟩
  rw [Function.update_self]
  exact linked.store top outside

theorem eq_nil (linked : Linked memory 0 chunks) : chunks = [] := by
  cases chunks with
  | nil => rfl
  | cons chunk rest => exact absurd linked.1.symm linked.2.1

/-- A list of chunks that is not empty has a first one. -/
theorem pop (linked : Linked memory top chunks) (isChunk : top ≠ 0) :
    ∃ rest, chunks = top :: rest ∧ Linked memory (memory top) rest := by
  cases chunks with
  | nil => exact absurd linked isChunk
  | cons chunk rest =>
      obtain ⟨rfl, -, tail⟩ := linked
      exact ⟨rest, rfl, tail⟩

end Linked

end Foundation
