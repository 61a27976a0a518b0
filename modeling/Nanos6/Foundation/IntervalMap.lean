import Mathlib.Data.List.Basic
import Mathlib.Data.List.Pairwise
import Mathlib.Order.Basic
import Mathlib.Tactic.Common

/-!
# Maps from disjoint intervals of addresses

An `IntervalMap` is a list of pieces, each an interval of natural numbers with
a value, sorted by address and pairwise disjoint.  The order and the
disjointness are fields of the structure, so every operation below keeps them.

The point of the module is `IntervalMap.lookup`: it reads a map one address at
a time, and every operation is characterised by what it does to each address.
Cutting a piece in several parts does not change the map read this way.
-/

namespace Foundation

universe u

/-- The half-open interval `[start, stop)`. -/
structure Interval where
  start : Nat
  stop : Nat
  deriving DecidableEq, Repr

namespace Interval

instance : Membership Nat Interval :=
  ⟨fun interval address => interval.start ≤ address ∧ address < interval.stop⟩

theorem mem_iff {address : Nat} {interval : Interval} :
    address ∈ interval ↔
      interval.start ≤ address ∧ address < interval.stop :=
  Iff.rfl

instance (address : Nat) (interval : Interval) :
    Decidable (address ∈ interval) :=
  inferInstanceAs (Decidable (_ ∧ _))

/-- An interval that holds at least one address. -/
def Nonempty (interval : Interval) : Prop :=
  interval.start < interval.stop

instance (interval : Interval) : Decidable interval.Nonempty :=
  inferInstanceAs (Decidable (_ < _))

/-- The common part of two intervals. -/
def inter (first second : Interval) : Interval :=
  ⟨max first.start second.start, min first.stop second.stop⟩

theorem mem_inter {address : Nat} {first second : Interval} :
    address ∈ first.inter second ↔ address ∈ first ∧ address ∈ second := by
  simp only [mem_iff, inter]
  omega

/-- Two intervals share an address. -/
def Meets (first second : Interval) : Prop :=
  (first.inter second).Nonempty

instance (first second : Interval) : Decidable (first.Meets second) :=
  inferInstanceAs (Decidable (Nonempty _))

theorem meets_self {interval : Interval} (positive : interval.Nonempty) :
    interval.Meets interval := by
  simpa [Meets, inter] using positive

theorem meets_of_mem {address : Nat} {first second : Interval}
    (inFirst : address ∈ first) (inSecond : address ∈ second) :
    first.Meets second := by
  simp only [mem_iff, Meets, Nonempty, inter] at *
  omega

end Interval

/-- One interval with the value of all its addresses. -/
structure Piece (α : Type u) where
  interval : Interval
  value : α
  deriving DecidableEq, Repr

namespace Piece

variable {α : Type u}

/-- Replace the part of a piece inside `target` by `value`, or drop that part;
the parts on both sides keep the value of the piece. -/
def split (piece : Piece α) (target : Interval) (value : Option α) :
    List (Piece α) :=
  if piece.interval.Meets target then
    (if piece.interval.start < target.start then
        [⟨⟨piece.interval.start, target.start⟩, piece.value⟩]
      else []) ++
    ((value.map fun found => ⟨piece.interval.inter target, found⟩).toList ++
    (if target.stop < piece.interval.stop then
        [⟨⟨target.stop, piece.interval.stop⟩, piece.value⟩]
      else []))
  else
    [piece]

/-- The number of parts that a split leaves beside the target. -/
def sides (piece : Piece α) (target : Interval) : Nat :=
  (if piece.interval.start < target.start then 1 else 0) +
    (if target.stop < piece.interval.stop then 1 else 0)

/-- What a part of a split piece is: the piece itself, the part before the
target, the part inside it or the part after it. -/
theorem split_cases {piece part : Piece α} {target : Interval}
    {value : Option α} (member : part ∈ piece.split target value) :
    (¬ piece.interval.Meets target ∧ part = piece) ∨
      (piece.interval.Meets target ∧
        ((piece.interval.start < target.start ∧
            part = ⟨⟨piece.interval.start, target.start⟩, piece.value⟩) ∨
          (∃ found, value = some found ∧
            part = ⟨piece.interval.inter target, found⟩) ∨
          (target.stop < piece.interval.stop ∧
            part = ⟨⟨target.stop, piece.interval.stop⟩, piece.value⟩))) := by
  unfold split at member
  split at member
  · rename_i meets
    refine Or.inr ⟨meets, ?_⟩
    rcases List.mem_append.mp member with left | rest
    · split at left
      · exact Or.inl ⟨‹_›, List.mem_singleton.mp left⟩
      · exact absurd left List.not_mem_nil
    · rcases List.mem_append.mp rest with middle | right
      · rcases value with _ | found
        · exact absurd middle List.not_mem_nil
        · exact Or.inr (Or.inl ⟨found, rfl, List.mem_singleton.mp middle⟩)
      · split at right
        · exact Or.inr (Or.inr ⟨‹_›, List.mem_singleton.mp right⟩)
        · exact absurd right List.not_mem_nil
  · rename_i apart
    exact Or.inl ⟨apart, List.mem_singleton.mp member⟩

theorem mem_split {piece part : Piece α} {target : Interval}
    {value : Option α} (member : part ∈ piece.split target value) :
    (∀ address, address ∈ part.interval → address ∈ piece.interval) ∧
      (∀ address, address ∈ part.interval →
        (address ∈ target → value = some part.value) ∧
        (address ∉ target → part.value = piece.value)) := by
  rcases split_cases member with
    ⟨apart, rfl⟩ | ⟨meets, ⟨before, rfl⟩ | ⟨found, rfl, rfl⟩ | ⟨after, rfl⟩⟩
  · refine ⟨fun _ inside => inside, fun address inside => ⟨fun inTarget => ?_, fun _ => rfl⟩⟩
    exact absurd (Interval.meets_of_mem inside inTarget) apart
  · simp only [Interval.Meets, Interval.Nonempty, Interval.inter] at meets
    simp only [Interval.mem_iff]
    exact ⟨by omega, fun address inside => ⟨by omega, fun _ => trivial⟩⟩
  · refine ⟨fun address inside => (Interval.mem_inter.mp inside).1,
      fun address inside => ⟨fun _ => rfl, fun outside => ?_⟩⟩
    exact absurd (Interval.mem_inter.mp inside).2 outside
  · simp only [Interval.Meets, Interval.Nonempty, Interval.inter] at meets
    simp only [Interval.mem_iff]
    exact ⟨by omega, fun address inside => ⟨by omega, fun _ => trivial⟩⟩

theorem split_target {piece : Piece α} {target : Interval} {found : α}
    {address : Nat} (inPiece : address ∈ piece.interval)
    (inTarget : address ∈ target) :
    ⟨piece.interval.inter target, found⟩ ∈ piece.split target (some found) := by
  unfold split
  rw [if_pos (Interval.meets_of_mem inPiece inTarget)]
  simp

theorem split_outside {piece : Piece α} {target : Interval}
    (value : Option α) {address : Nat}
    (inPiece : address ∈ piece.interval) (outside : address ∉ target) :
    ∃ part ∈ piece.split target value,
      address ∈ part.interval ∧ part.value = piece.value := by
  unfold split
  split
  · rename_i meets
    simp only [Interval.Meets, Interval.Nonempty, Interval.inter] at meets
    simp only [Interval.mem_iff] at inPiece outside
    by_cases before : address < target.start
    · refine ⟨⟨⟨piece.interval.start, target.start⟩, piece.value⟩, ?_, ?_, rfl⟩
      · rw [if_pos (by omega)]
        simp
      · exact ⟨inPiece.1, before⟩
    · refine ⟨⟨⟨target.stop, piece.interval.stop⟩, piece.value⟩, ?_, ?_, rfl⟩
      · rw [if_pos (c := target.stop < piece.interval.stop) (by omega)]
        simp
      · refine ⟨?_, inPiece.2⟩
        change target.stop ≤ address
        omega
  · exact ⟨piece, List.mem_singleton.mpr rfl, inPiece, rfl⟩

end Piece

/-- Sorted by address and pairwise disjoint. -/
def Ordered {α : Type u} (pieces : List (Piece α)) : Prop :=
  pieces.Pairwise fun first second =>
    first.interval.stop ≤ second.interval.start

/-- Disjoint intervals with values, sorted by address. -/
structure IntervalMap (α : Type u) where
  pieces : List (Piece α)
  nonempty : ∀ piece ∈ pieces, piece.interval.Nonempty
  ordered : Ordered pieces

namespace IntervalMap

variable {α : Type u}

/-- The map without any piece. -/
def empty : IntervalMap α where
  pieces := []
  nonempty := fun _ member => absurd member List.not_mem_nil
  ordered := List.Pairwise.nil

@[simp]
theorem pieces_empty : (empty : IntervalMap α).pieces = [] :=
  rfl

/-- The value of one address. -/
def lookup (map : IntervalMap α) (address : Nat) : Option α :=
  (map.pieces.find? fun piece => decide (address ∈ piece.interval)).map
    Piece.value

/-- The first piece that meets `[low, high)`. -/
def firstIn (map : IntervalMap α) (low high : Nat) : Option (Piece α) :=
  if low < high then
    map.pieces.find? fun piece =>
      decide (low < piece.interval.stop ∧ piece.interval.start < high)
  else
    none

/-- The first piece that ends after `low`. -/
def nextFrom (map : IntervalMap α) (low : Nat) : Option (Piece α) :=
  map.pieces.find? fun piece => decide (low < piece.interval.stop)

/-- The number of pieces whose value satisfies `test`. -/
def countPieces (map : IntervalMap α) (test : α → Bool) : Nat :=
  map.pieces.countP fun piece => test piece.value


/-- Two different pieces of a sorted list lie apart. -/
theorem Ordered.apart {pieces : List (Piece α)} (ordered : Ordered pieces)
    {first second : Piece α} (firstMember : first ∈ pieces)
    (secondMember : second ∈ pieces) :
    first = second ∨ first.interval.stop ≤ second.interval.start ∨
      second.interval.stop ≤ first.interval.start := by
  induction pieces with
  | nil => exact absurd firstMember List.not_mem_nil
  | cons head tail inductionHypothesis =>
      obtain ⟨headBefore, tailOrdered⟩ := List.pairwise_cons.mp ordered
      rcases List.mem_cons.mp firstMember with rfl | firstTail
      · rcases List.mem_cons.mp secondMember with rfl | secondTail
        · exact Or.inl rfl
        · exact Or.inr (Or.inl (headBefore second secondTail))
      · rcases List.mem_cons.mp secondMember with rfl | secondTail
        · exact Or.inr (Or.inr (headBefore first firstTail))
        · exact inductionHypothesis tailOrdered firstTail secondTail

/-- Two pieces that share an address are the same piece. -/
theorem eq_of_mem (map : IntervalMap α) {first second : Piece α}
    (firstMember : first ∈ map.pieces) (secondMember : second ∈ map.pieces)
    {address : Nat} (inFirst : address ∈ first.interval)
    (inSecond : address ∈ second.interval) :
    first = second := by
  simp only [Interval.mem_iff] at inFirst inSecond
  rcases Ordered.apart map.ordered firstMember secondMember with same | apart
  · exact same
  · omega

/-- Pieces are identified by where they start. -/
theorem eq_of_start (map : IntervalMap α) {first second : Piece α}
    (firstMember : first ∈ map.pieces) (secondMember : second ∈ map.pieces)
    (start : first.interval.start = second.interval.start) :
    first = second := by
  have firstNonempty := map.nonempty first firstMember
  have secondNonempty := map.nonempty second secondMember
  simp only [Interval.Nonempty] at firstNonempty secondNonempty
  have inFirst : first.interval.start ∈ first.interval :=
    ⟨Nat.le_refl _, firstNonempty⟩
  have inSecond : first.interval.start ∈ second.interval :=
    ⟨by omega, by omega⟩
  exact map.eq_of_mem firstMember secondMember inFirst inSecond

theorem lookup_eq_some (map : IntervalMap α) {address : Nat} {value : α} :
    map.lookup address = some value ↔
      ∃ piece ∈ map.pieces,
        address ∈ piece.interval ∧ piece.value = value := by
  unfold lookup
  constructor
  · intro found
    obtain ⟨piece, foundPiece, same⟩ := Option.map_eq_some_iff.mp found
    have member := List.mem_of_find?_eq_some foundPiece
    have inside : address ∈ piece.interval := by
      simpa using List.find?_some foundPiece
    exact ⟨piece, member, inside, same⟩
  · rintro ⟨piece, member, inside, rfl⟩
    cases found : map.pieces.find?
        (fun piece => decide (address ∈ piece.interval)) with
    | none =>
        have absent := List.find?_eq_none.mp found piece member
        exact absurd (decide_eq_true inside) absent
    | some other =>
        have otherInside : address ∈ other.interval := by
          simpa using List.find?_some found
        have same :=
          map.eq_of_mem (List.mem_of_find?_eq_some found) member
            otherInside inside
        rw [same]
        rfl

theorem lookup_of_mem (map : IntervalMap α) {piece : Piece α}
    (member : piece ∈ map.pieces) {address : Nat}
    (inside : address ∈ piece.interval) :
    map.lookup address = some piece.value :=
  map.lookup_eq_some.mpr ⟨piece, member, inside, rfl⟩

theorem lookup_eq_none (map : IntervalMap α) {address : Nat} :
    map.lookup address = none ↔
      ∀ piece ∈ map.pieces, address ∉ piece.interval := by
  constructor
  · intro absent piece member inside
    rw [map.lookup_of_mem member inside] at absent
    cases absent
  · intro outside
    cases found : map.lookup address with
    | none => rfl
    | some value =>
        obtain ⟨piece, member, inside, _⟩ := map.lookup_eq_some.mp found
        exact absurd inside (outside piece member)

@[simp]
theorem lookup_empty (address : Nat) :
    (empty : IntervalMap α).lookup address = none :=
  rfl

/-- Reading a map through the pieces of another one. -/
theorem lookup_congr {first second : IntervalMap α} {address : Nat}
    (same :
      ∀ value,
        (∃ piece ∈ first.pieces,
          address ∈ piece.interval ∧ piece.value = value) ↔
        (∃ piece ∈ second.pieces,
          address ∈ piece.interval ∧ piece.value = value)) :
    first.lookup address = second.lookup address := by
  apply Option.ext
  intro value
  rw [first.lookup_eq_some, second.lookup_eq_some]
  exact same value

theorem firstIn_eq_some (map : IntervalMap α) {low high : Nat}
    {piece : Piece α} (found : map.firstIn low high = some piece) :
    piece ∈ map.pieces ∧ piece.interval.Meets ⟨low, high⟩ ∧
      ∀ address, low ≤ address → address < high →
        address < piece.interval.start → map.lookup address = none := by
  unfold firstIn at found
  split at found
  case isFalse => cases found
  case isTrue positive =>
  have member := List.mem_of_find?_eq_some found
  have meets : low < piece.interval.stop ∧ piece.interval.start < high := by
    simpa using List.find?_some found
  have pieceNonempty := map.nonempty piece member
  simp only [Interval.Nonempty] at pieceNonempty
  refine ⟨member, ?_, ?_⟩
  · simp only [Interval.Meets, Interval.Nonempty, Interval.inter]
    omega
  intro address above below before
  rw [map.lookup_eq_none]
  intro other otherMember inside
  obtain ⟨_, initial, suffix, equality, skipped⟩ :=
    List.find?_eq_some_iff_append.mp found
  simp only [Interval.mem_iff] at inside
  rw [equality] at otherMember
  rcases List.mem_append.mp otherMember with earlier | later
  · have missed := skipped other earlier
    simp only [Bool.not_eq_eq_eq_not, Bool.not_true,
      decide_eq_false_iff_not, not_and] at missed
    omega
  · rcases List.mem_cons.mp later with same | after
    · subst same
      omega
    · have sorted := map.ordered
      rw [Ordered, equality] at sorted
      have tailSorted := (List.pairwise_append.mp sorted).2.1
      have bound := (List.pairwise_cons.mp tailSorted).1 other after
      omega

theorem firstIn_eq_none (map : IntervalMap α) {low high : Nat}
    (absent : map.firstIn low high = none) {address : Nat}
    (above : low ≤ address) (below : address < high) :
    map.lookup address = none := by
  unfold firstIn at absent
  rw [if_pos (by omega)] at absent
  rw [map.lookup_eq_none]
  intro piece member inside
  have missed := List.find?_eq_none.mp absent piece member
  simp only [Interval.mem_iff] at inside
  simp only [decide_eq_true_eq, not_and] at missed
  omega

theorem nextFrom_eq_some (map : IntervalMap α) {low : Nat}
    {piece : Piece α} (found : map.nextFrom low = some piece) :
    piece ∈ map.pieces ∧ low < piece.interval.stop ∧
      ∀ address, low ≤ address →
        address < piece.interval.start → map.lookup address = none := by
  have positive :=
    map.nonempty piece (List.mem_of_find?_eq_some found)
  simp only [Interval.Nonempty] at positive
  have asFirst : map.firstIn low piece.interval.stop = some piece := by
    unfold nextFrom at found
    unfold firstIn
    obtain ⟨meets, initial, suffix, equality, skipped⟩ :=
      List.find?_eq_some_iff_append.mp found
    rw [if_pos (by simpa using meets)]
    refine List.find?_eq_some_iff_append.mpr
      ⟨?_, initial, suffix, equality, ?_⟩
    · simp only [decide_eq_true_eq] at meets ⊢
      exact ⟨meets, positive⟩
    · intro other member
      have missed := skipped other member
      simp only [Bool.not_eq_eq_eq_not, Bool.not_true,
        decide_eq_false_iff_not, not_and] at missed ⊢
      intro still
      exact absurd still missed
  obtain ⟨member, meets, before⟩ := map.firstIn_eq_some asFirst
  simp only [Interval.Meets, Interval.Nonempty, Interval.inter] at meets
  refine ⟨member, by omega, ?_⟩
  intro address low' below
  exact before address low' (by omega) below

theorem nextFrom_eq_none (map : IntervalMap α) {low : Nat}
    (absent : map.nextFrom low = none) {address : Nat}
    (above : low ≤ address) :
    map.lookup address = none := by
  unfold nextFrom at absent
  rw [map.lookup_eq_none]
  intro piece member inside
  have missed := List.find?_eq_none.mp absent piece member
  simp only [Interval.mem_iff] at inside
  simp only [decide_eq_true_eq] at missed
  omega

/-! ## Rewriting pieces in place -/

/-- A rewriting that keeps every piece inside the interval it comes from. -/
structure Refines (rewrite : Piece α → List (Piece α)) : Prop where
  nonempty : ∀ piece, piece.interval.Nonempty →
    ∀ part ∈ rewrite piece, part.interval.Nonempty
  inside : ∀ piece, ∀ part ∈ rewrite piece,
    piece.interval.start ≤ part.interval.start ∧
      part.interval.stop ≤ piece.interval.stop
  ordered : ∀ piece, Ordered (rewrite piece)

private theorem ordered_flatMap {rewrite : Piece α → List (Piece α)}
    (refines : Refines rewrite) {pieces : List (Piece α)}
    (ordered : Ordered pieces) :
    Ordered (pieces.flatMap rewrite) := by
  induction pieces with
  | nil => exact List.Pairwise.nil
  | cons head tail inductionHypothesis =>
      obtain ⟨headBefore, tailOrdered⟩ := List.pairwise_cons.mp ordered
      rw [List.flatMap_cons]
      refine List.pairwise_append.mpr
        ⟨refines.ordered head, inductionHypothesis tailOrdered, ?_⟩
      intro left leftMember right rightMember
      obtain ⟨source, sourceMember, rightSource⟩ :=
        List.mem_flatMap.mp rightMember
      have leftBound := (refines.inside head left leftMember).2
      have rightBound := (refines.inside source right rightSource).1
      have between := headBefore source sourceMember
      omega

/-- Rewrite every piece in place. -/
def rewritePieces (map : IntervalMap α) (rewrite : Piece α → List (Piece α))
    (refines : Refines rewrite) : IntervalMap α where
  pieces := map.pieces.flatMap rewrite
  nonempty := by
    intro part member
    obtain ⟨piece, pieceMember, partMember⟩ := List.mem_flatMap.mp member
    exact refines.nonempty piece (map.nonempty piece pieceMember) part partMember
  ordered := ordered_flatMap refines map.ordered

theorem refines_split (target : Interval) (value : Option α) :
    Refines fun piece : Piece α => piece.split target value where
  nonempty := by
    intro piece positive part member
    rcases Piece.split_cases member with
      ⟨_, rfl⟩ | ⟨meets, ⟨before, rfl⟩ | ⟨found, _, rfl⟩ | ⟨after, rfl⟩⟩
    · exact positive
    · exact before
    · exact meets
    · exact after
  inside := by
    intro piece part member
    rcases Piece.split_cases member with
      ⟨_, rfl⟩ | ⟨meets, ⟨before, rfl⟩ | ⟨found, _, rfl⟩ | ⟨after, rfl⟩⟩
    · exact ⟨Nat.le_refl _, Nat.le_refl _⟩
    · simp only [Interval.Meets, Interval.Nonempty, Interval.inter] at meets
      exact ⟨Nat.le_refl _, by change target.start ≤ _; omega⟩
    · exact ⟨Nat.le_max_left _ _, Nat.min_le_left _ _⟩
    · simp only [Interval.Meets, Interval.Nonempty, Interval.inter] at meets
      exact ⟨by change _ ≤ target.stop; omega, Nat.le_refl _⟩
  ordered := by
    intro piece
    unfold Piece.split Ordered
    split
    · rename_i meets
      simp only [Interval.Meets, Interval.Nonempty, Interval.inter] at meets
      rcases value with _ | found <;> split <;> split <;>
        simp [Interval.inter] <;> omega
    · exact List.pairwise_singleton _ _

/-- Replace the part of `piece` inside `target`; the other pieces stay. -/
def replace (map : IntervalMap α) (piece : Piece α) (target : Interval)
    (value : Option α) : IntervalMap α :=
  map.rewritePieces
    (fun other =>
      if other.interval.start = piece.interval.start then
        other.split target value
      else [other])
    { nonempty := by
        intro other positive part member
        split at member
        · exact (refines_split target value).nonempty other positive part member
        · obtain rfl := List.mem_singleton.mp member
          exact positive
      inside := by
        intro other part member
        split at member
        · exact (refines_split target value).inside other part member
        · obtain rfl := List.mem_singleton.mp member
          exact ⟨Nat.le_refl _, Nat.le_refl _⟩
      ordered := by
        intro other
        split
        · exact (refines_split target value).ordered other
        · exact List.pairwise_singleton _ _ }

/-- Remove every address of `target`. -/
def eraseInterval (map : IntervalMap α) (target : Interval) : IntervalMap α :=
  map.rewritePieces (fun piece => piece.split target none)
    (refines_split target none)

/-- Change the values without moving any piece. -/
def mapValues (map : IntervalMap α) (change : α → α) : IntervalMap α :=
  map.rewritePieces (fun piece => [⟨piece.interval, change piece.value⟩])
    { nonempty := by
        intro piece positive part member
        obtain rfl := List.mem_singleton.mp member
        exact positive
      inside := by
        intro piece part member
        obtain rfl := List.mem_singleton.mp member
        exact ⟨Nat.le_refl _, Nat.le_refl _⟩
      ordered := fun _ => List.pairwise_singleton _ _ }

/-- Change the values of the pieces that share an address with `target`. -/
def mapMeeting (map : IntervalMap α) (target : Interval) (change : α → α) :
    IntervalMap α :=
  map.rewritePieces
    (fun piece =>
      [⟨piece.interval,
        if piece.interval.Meets target then change piece.value
        else piece.value⟩])
    { nonempty := by
        intro piece positive part member
        obtain rfl := List.mem_singleton.mp member
        exact positive
      inside := by
        intro piece part member
        obtain rfl := List.mem_singleton.mp member
        exact ⟨Nat.le_refl _, Nat.le_refl _⟩
      ordered := fun _ => List.pairwise_singleton _ _ }

/-- Cut every piece at the borders of `target`. -/
def cut (map : IntervalMap α) (target : Interval) : IntervalMap α :=
  map.rewritePieces (fun piece => piece.split target (some piece.value))
    { nonempty := fun piece =>
        (refines_split target (some piece.value)).nonempty piece
      inside := fun piece =>
        (refines_split target (some piece.value)).inside piece
      ordered := fun piece =>
        (refines_split target (some piece.value)).ordered piece }

/-- The parts of `[low, high)` that no piece of the list covers. -/
def gapsFrom (high : Nat) : Nat → List (Piece α) → List Interval
  | low, [] => if low < high then [⟨low, high⟩] else []
  | low, piece :: rest =>
      if piece.interval.stop ≤ low then
        gapsFrom high low rest
      else if high ≤ piece.interval.start then
        if low < high then [⟨low, high⟩] else []
      else if low < piece.interval.start then
        ⟨low, piece.interval.start⟩ :: gapsFrom high piece.interval.stop rest
      else
        gapsFrom high piece.interval.stop rest

/-- The parts of `target` that the map does not cover, in address order. -/
def gaps (map : IntervalMap α) (target : Interval) : List Interval :=
  gapsFrom target.stop target.start map.pieces

private theorem flatMap_other {pieces : List (Piece α)} {piece : Piece α}
    {target : Interval} {value : Option α}
    (others : ∀ other ∈ pieces,
      other.interval.start ≠ piece.interval.start) :
    (pieces.flatMap fun other =>
      if other.interval.start = piece.interval.start then
        other.split target value
      else [other]) = pieces := by
  induction pieces with
  | nil => rfl
  | cons head tail inductionHypothesis =>
      have headOther := others head (by simp)
      have tailOther := inductionHypothesis fun other member =>
        others other (List.mem_cons_of_mem head member)
      rw [List.flatMap_cons, if_neg headOther, tailOther]
      rfl

/-- A replacement rewrites one piece and keeps the list around it. -/
theorem pieces_replace (map : IntervalMap α) {piece : Piece α}
    (member : piece ∈ map.pieces) (target : Interval) (value : Option α) :
    ∃ before after,
      map.pieces = before ++ piece :: after ∧
        (map.replace piece target value).pieces =
          before ++ (piece.split target value ++ after) := by
  obtain ⟨before, after, equality⟩ := List.append_of_mem member
  refine ⟨before, after, equality, ?_⟩
  have positive := map.nonempty
  have ordered := map.ordered
  rw [equality] at positive
  rw [Ordered, equality] at ordered
  obtain ⟨_, middleOrdered, acrossOrdered⟩ := List.pairwise_append.mp ordered
  obtain ⟨afterOrdered, _⟩ := List.pairwise_cons.mp middleOrdered
  have piecePositive := positive piece (by simp)
  have beforeOther : ∀ other ∈ before,
      other.interval.start ≠ piece.interval.start := by
    intro other otherMember same
    have bound := acrossOrdered other otherMember piece (by simp)
    have otherPositive :=
      positive other (List.mem_append_left _ otherMember)
    simp only [Interval.Nonempty] at otherPositive
    omega
  have afterOther : ∀ other ∈ after,
      other.interval.start ≠ piece.interval.start := by
    intro other otherMember same
    have bound := afterOrdered other otherMember
    simp only [Interval.Nonempty] at piecePositive
    omega
  change map.pieces.flatMap _ = _
  rw [equality, List.flatMap_append, List.flatMap_cons,
    flatMap_other beforeOther, flatMap_other afterOther, if_pos rfl]

theorem mem_replace (map : IntervalMap α) {piece : Piece α}
    (member : piece ∈ map.pieces) {target : Interval} {value : Option α}
    {part : Piece α} :
    part ∈ (map.replace piece target value).pieces ↔
      part ∈ piece.split target value ∨
        (part ∈ map.pieces ∧
          part.interval.start ≠ piece.interval.start) := by
  constructor
  · intro partMember
    obtain ⟨other, otherMember, partOther⟩ := List.mem_flatMap.mp partMember
    split at partOther
    · rename_i same
      rw [map.eq_of_start otherMember member same] at partOther
      exact Or.inl partOther
    · rename_i different
      obtain rfl := List.mem_singleton.mp partOther
      exact Or.inr ⟨otherMember, different⟩
  · rintro (inSplit | ⟨partMember, different⟩)
    · refine List.mem_flatMap.mpr ⟨piece, member, ?_⟩
      rw [if_pos rfl]
      exact inSplit
    · refine List.mem_flatMap.mpr ⟨part, partMember, ?_⟩
      rw [if_neg different]
      exact List.mem_singleton.mpr rfl

/-- A replacement changes exactly the addresses of the piece inside the
target. -/
theorem lookup_replace (map : IntervalMap α) {piece : Piece α}
    (member : piece ∈ map.pieces) (target : Interval) (value : Option α)
    (address : Nat) :
    (map.replace piece target value).lookup address =
      if address ∈ piece.interval ∧ address ∈ target then value
      else map.lookup address := by
  by_cases inPiece : address ∈ piece.interval
  · by_cases inTarget : address ∈ target
    · rw [if_pos ⟨inPiece, inTarget⟩]
      rcases value with _ | found
      · rw [lookup_eq_none]
        intro part partMember inside
        rcases (map.mem_replace member).mp partMember with
          inSplit | ⟨inMap, different⟩
        · have value := ((Piece.mem_split inSplit).2 address inside).1 inTarget
          cases value
        · exact different
            (map.eq_of_mem inMap member inside inPiece ▸ rfl)
      · rw [lookup_eq_some]
        refine ⟨⟨piece.interval.inter target, found⟩, ?_, ?_, rfl⟩
        · exact (map.mem_replace member).mpr
            (Or.inl (Piece.split_target inPiece inTarget))
        · exact Interval.mem_inter.mpr ⟨inPiece, inTarget⟩
    · rw [if_neg fun both => inTarget both.2, map.lookup_of_mem member inPiece,
        lookup_eq_some]
      obtain ⟨part, partMember, inside, same⟩ :=
        Piece.split_outside value inPiece inTarget
      exact ⟨part, (map.mem_replace member).mpr (Or.inl partMember), inside, same⟩
  · rw [if_neg fun both => inPiece both.1]
    refine lookup_congr fun found => ?_
    constructor
    · rintro ⟨part, partMember, inside, same⟩
      rcases (map.mem_replace member).mp partMember with
        inSplit | ⟨inMap, _⟩
      · exact absurd ((Piece.mem_split inSplit).1 address inside) inPiece
      · exact ⟨part, inMap, inside, same⟩
    · rintro ⟨part, partMember, inside, same⟩
      refine ⟨part, (map.mem_replace member).mpr (Or.inr ⟨partMember, ?_⟩),
        inside, same⟩
      intro sameStart
      rw [map.eq_of_start partMember member sameStart] at inside
      exact inPiece inside

theorem lookup_eraseInterval (map : IntervalMap α) (target : Interval)
    (address : Nat) :
    (map.eraseInterval target).lookup address =
      if address ∈ target then none else map.lookup address := by
  by_cases inTarget : address ∈ target
  · rw [if_pos inTarget, lookup_eq_none]
    intro part partMember inside
    obtain ⟨piece, _, inSplit⟩ := List.mem_flatMap.mp partMember
    have value := ((Piece.mem_split inSplit).2 address inside).1 inTarget
    cases value
  · rw [if_neg inTarget]
    refine lookup_congr fun found => ?_
    constructor
    · rintro ⟨part, partMember, inside, same⟩
      obtain ⟨piece, pieceMember, inSplit⟩ := List.mem_flatMap.mp partMember
      obtain ⟨within, values⟩ := Piece.mem_split inSplit
      refine ⟨piece, pieceMember, within address inside, ?_⟩
      rw [← (values address inside).2 inTarget, same]
    · rintro ⟨piece, pieceMember, inside, same⟩
      obtain ⟨part, partMember, partInside, sameValue⟩ :=
        Piece.split_outside none inside inTarget
      exact ⟨part, List.mem_flatMap.mpr ⟨piece, pieceMember, partMember⟩,
        partInside, sameValue.trans same⟩

theorem lookup_mapValues (map : IntervalMap α) (change : α → α)
    (address : Nat) :
    (map.mapValues change).lookup address =
      (map.lookup address).map change := by
  cases found : map.lookup address with
  | none =>
      rw [lookup_eq_none] at found
      rw [Option.map_none, lookup_eq_none]
      intro part partMember inside
      obtain ⟨piece, pieceMember, inRewrite⟩ := List.mem_flatMap.mp partMember
      obtain rfl := List.mem_singleton.mp inRewrite
      exact found piece pieceMember inside
  | some value =>
      obtain ⟨piece, pieceMember, inside, rfl⟩ := map.lookup_eq_some.mp found
      rw [Option.map_some, lookup_eq_some]
      refine ⟨⟨piece.interval, change piece.value⟩, ?_, inside, rfl⟩
      exact List.mem_flatMap.mpr
        ⟨piece, pieceMember, List.mem_singleton.mpr rfl⟩

theorem mem_mapValues (map : IntervalMap α) {change : α → α}
    {part : Piece α} :
    part ∈ (map.mapValues change).pieces ↔
      ∃ piece ∈ map.pieces, part = ⟨piece.interval, change piece.value⟩ := by
  change part ∈ map.pieces.flatMap _ ↔ _
  simp only [List.mem_flatMap, List.mem_singleton]

theorem mem_mapMeeting (map : IntervalMap α) {target : Interval}
    {change : α → α} {part : Piece α} :
    part ∈ (map.mapMeeting target change).pieces ↔
      ∃ piece ∈ map.pieces,
        part = ⟨piece.interval,
          if piece.interval.Meets target then change piece.value
          else piece.value⟩ := by
  change part ∈ map.pieces.flatMap _ ↔ _
  simp only [List.mem_flatMap, List.mem_singleton]

/-- The value at an address after a change of the pieces that meet `target`. -/
theorem lookup_mapMeeting (map : IntervalMap α) (target : Interval)
    (change : α → α) (address : Nat) :
    ∃ meets : Bool, (address ∈ target → meets = true) ∧
      (map.mapMeeting target change).lookup address =
        if meets then (map.lookup address).map change
        else map.lookup address := by
  cases found : map.lookup address with
  | none =>
      refine ⟨true, fun _ => rfl, ?_⟩
      rw [lookup_eq_none] at found
      rw [if_pos rfl, Option.map_none, lookup_eq_none]
      intro part partMember inside
      obtain ⟨piece, pieceMember, rfl⟩ := map.mem_mapMeeting.mp partMember
      exact found piece pieceMember inside
  | some value =>
      obtain ⟨piece, pieceMember, inside, rfl⟩ := map.lookup_eq_some.mp found
      refine ⟨decide (piece.interval.Meets target), ?_, ?_⟩
      · intro inTarget
        exact decide_eq_true (Interval.meets_of_mem inside inTarget)
      · have changed := (map.mapMeeting target change).lookup_of_mem
          (map.mem_mapMeeting.mpr ⟨piece, pieceMember, rfl⟩) inside
        rw [changed]
        by_cases meets : piece.interval.Meets target
        · simp [meets]
        · simp [meets]

/-- What a change of the meeting pieces does not touch reads as before. -/
theorem map_lookup_mapMeeting {β : Type u} (map : IntervalMap α)
    (target : Interval) {change : α → α} {view : α → β}
    (same : ∀ value, view (change value) = view value) (address : Nat) :
    ((map.mapMeeting target change).lookup address).map view =
      (map.lookup address).map view := by
  obtain ⟨meets, -, changed⟩ := map.lookup_mapMeeting target change address
  rw [changed]
  split
  · rw [Option.map_map]
    congr 1
    funext value
    exact same value
  · rfl

/-- The values after a replacement are old ones or the new one. -/
theorem value_replace (map : IntervalMap α) {piece : Piece α}
    (member : piece ∈ map.pieces) {target : Interval} {value : Option α}
    {part : Piece α} (partMember : part ∈ (map.replace piece target value).pieces) :
    (∃ other ∈ map.pieces, part.value = other.value) ∨
      value = some part.value := by
  rcases (map.mem_replace member).mp partMember with inSplit | ⟨inMap, _⟩
  · rcases Piece.split_cases inSplit with
      ⟨_, rfl⟩ | ⟨_, ⟨_, rfl⟩ | ⟨found, rfl, rfl⟩ | ⟨_, rfl⟩⟩
    · exact Or.inl ⟨part, member, rfl⟩
    · exact Or.inl ⟨piece, member, rfl⟩
    · exact Or.inr rfl
    · exact Or.inl ⟨piece, member, rfl⟩
  · exact Or.inl ⟨part, inMap, rfl⟩

/-- A rewritten map has pieces inside the old ones only. -/
theorem inside_rewritePieces (map : IntervalMap α)
    {rewrite : Piece α → List (Piece α)} (refines : Refines rewrite)
    {part : Piece α} (member : part ∈ (map.rewritePieces rewrite refines).pieces) :
    ∃ piece ∈ map.pieces,
      piece.interval.start ≤ part.interval.start ∧
        part.interval.stop ≤ piece.interval.stop := by
  obtain ⟨piece, pieceMember, partMember⟩ := List.mem_flatMap.mp member
  exact ⟨piece, pieceMember, refines.inside piece part partMember⟩

theorem value_cut (map : IntervalMap α) {target : Interval} {part : Piece α}
    (partMember : part ∈ (map.cut target).pieces) :
    ∃ piece ∈ map.pieces, part.value = piece.value := by
  obtain ⟨piece, member, inSplit⟩ := List.mem_flatMap.mp partMember
  rcases Piece.split_cases inSplit with
    ⟨_, rfl⟩ | ⟨_, ⟨_, rfl⟩ | ⟨found, same, rfl⟩ | ⟨_, rfl⟩⟩
  · exact ⟨part, member, rfl⟩
  · exact ⟨piece, member, rfl⟩
  · exact ⟨piece, member, (Option.some.inj same).symm⟩
  · exact ⟨piece, member, rfl⟩

/-! ## Inserting a piece -/

private def insertPiece (piece : Piece α) :
    List (Piece α) → List (Piece α)
  | [] => [piece]
  | head :: tail =>
      if piece.interval.stop ≤ head.interval.start then
        piece :: head :: tail
      else
        head :: insertPiece piece tail

private theorem insertPiece_perm (piece : Piece α) :
    ∀ pieces : List (Piece α),
      (insertPiece piece pieces).Perm (piece :: pieces)
  | [] => List.Perm.refl _
  | head :: tail => by
      unfold insertPiece
      split
      · exact List.Perm.refl _
      · exact ((insertPiece_perm piece tail).cons head).trans
          (List.Perm.swap piece head tail)

private theorem ordered_insertPiece {piece : Piece α}
    (positive : piece.interval.Nonempty) :
    ∀ {pieces : List (Piece α)},
      (∀ other ∈ pieces, other.interval.Nonempty) →
      Ordered pieces →
      (∀ other ∈ pieces, ¬ other.interval.Meets piece.interval) →
      Ordered (insertPiece piece pieces)
  | [], _, _, _ => List.pairwise_singleton _ _
  | head :: tail, nonempty, ordered, apart => by
      obtain ⟨headBefore, tailOrdered⟩ := List.pairwise_cons.mp ordered
      have headPositive := nonempty head (by simp)
      have headApart := apart head (by simp)
      simp only [Interval.Meets, Interval.Nonempty, Interval.inter]
        at positive headPositive headApart
      unfold insertPiece
      split
      · rename_i before
        refine List.pairwise_cons.mpr ⟨?_, ordered⟩
        intro other member
        rcases List.mem_cons.mp member with rfl | inTail
        · exact before
        · have bound := headBefore other inTail
          omega
      · rename_i after
        have tailInserted := ordered_insertPiece positive
          (fun other member => nonempty other (List.mem_cons_of_mem _ member))
          tailOrdered
          (fun other member => apart other (List.mem_cons_of_mem _ member))
        refine List.pairwise_cons.mpr ⟨?_, tailInserted⟩
        intro other member
        rcases List.mem_cons.mp
            ((insertPiece_perm piece tail).mem_iff.mp member) with rfl | inTail
        · omega
        · exact headBefore other inTail

/-- Where a piece may be inserted: it holds an address and shares none with
the map. -/
def Fits (map : IntervalMap α) (target : Interval) : Prop :=
  target.Nonempty ∧ ∀ other ∈ map.pieces, ¬ other.interval.Meets target

instance (map : IntervalMap α) (target : Interval) :
    Decidable (map.Fits target) :=
  inferInstanceAs (Decidable (_ ∧ _))

/-- Insert a piece that fits; a piece that does not is left out. -/
def insert (map : IntervalMap α) (target : Interval) (value : α) :
    IntervalMap α :=
  if fits : map.Fits target then
    { pieces := insertPiece ⟨target, value⟩ map.pieces
      nonempty := by
        intro piece member
        rcases List.mem_cons.mp
            ((insertPiece_perm _ _).mem_iff.mp member) with rfl | inMap
        · exact fits.1
        · exact map.nonempty piece inMap
      ordered :=
        ordered_insertPiece fits.1 map.nonempty map.ordered fits.2 }
  else
    map

theorem perm_insert (map : IntervalMap α) {target : Interval}
    (fits : map.Fits target) (value : α) :
    (map.insert target value).pieces.Perm (⟨target, value⟩ :: map.pieces) := by
  unfold insert
  rw [dif_pos fits]
  exact insertPiece_perm _ _

theorem mem_insert (map : IntervalMap α) {target : Interval} {value : α}
    {part : Piece α} (member : part ∈ (map.insert target value).pieces) :
    part = ⟨target, value⟩ ∨ part ∈ map.pieces := by
  by_cases fits : map.Fits target
  · exact List.mem_cons.mp ((map.perm_insert fits value).mem_iff.mp member)
  · unfold insert at member
    rw [dif_neg fits] at member
    exact Or.inr member

theorem fits_of_lookup (map : IntervalMap α) {target : Interval}
    (positive : target.Nonempty)
    (free : ∀ address ∈ target, map.lookup address = none) :
    map.Fits target := by
  refine ⟨positive, fun other member meets => ?_⟩
  simp only [Interval.Meets, Interval.Nonempty, Interval.inter] at meets
  have inTarget : max other.interval.start target.start ∈ target :=
    ⟨by omega, by omega⟩
  have inOther : max other.interval.start target.start ∈ other.interval :=
    ⟨by omega, by omega⟩
  have absent := free _ inTarget
  rw [map.lookup_of_mem member inOther] at absent
  cases absent

theorem lookup_of_fits (map : IntervalMap α) {target : Interval}
    (fits : map.Fits target) {address : Nat} (inside : address ∈ target) :
    map.lookup address = none := by
  rw [lookup_eq_none]
  intro piece member inPiece
  exact fits.2 piece member (Interval.meets_of_mem inPiece inside)

theorem lookup_insert (map : IntervalMap α) {target : Interval}
    (fits : map.Fits target) (value : α) (address : Nat) :
    (map.insert target value).lookup address =
      if address ∈ target then some value else map.lookup address := by
  have members : ∀ {piece : Piece α},
      piece ∈ (map.insert target value).pieces ↔
        piece ∈ (⟨target, value⟩ : Piece α) :: map.pieces :=
    (map.perm_insert fits value).mem_iff
  by_cases inTarget : address ∈ target
  · rw [if_pos inTarget, lookup_eq_some]
    exact ⟨⟨target, value⟩, members.mpr (by simp), inTarget, rfl⟩
  · rw [if_neg inTarget]
    refine lookup_congr fun found => ?_
    constructor
    · rintro ⟨piece, member, inside, same⟩
      rcases List.mem_cons.mp (members.mp member) with rfl | inMap
      · exact absurd inside inTarget
      · exact ⟨piece, inMap, inside, same⟩
    · rintro ⟨piece, member, inside, same⟩
      exact ⟨piece, members.mpr (List.mem_cons_of_mem _ member), inside, same⟩

/-- Whether the piece fits or not, an address has the new value or the old
one. -/
theorem lookup_insert_cases (map : IntervalMap α) {target : Interval}
    {value found : α} {address : Nat}
    (read : (map.insert target value).lookup address = some found) :
    found = value ∨ map.lookup address = some found := by
  obtain ⟨piece, member, inside, rfl⟩ := (lookup_eq_some _).mp read
  rcases map.mem_insert member with rfl | old
  · exact Or.inl rfl
  · exact Or.inr (map.lookup_of_mem old inside)

/-! ## Counting pieces -/

@[simp]
theorem countPieces_empty (test : α → Bool) :
    (empty : IntervalMap α).countPieces test = 0 :=
  rfl

theorem countPieces_insert (map : IntervalMap α) {target : Interval}
    (fits : map.Fits target) (value : α) (test : α → Bool) :
    (map.insert target value).countPieces test =
      map.countPieces test + (test value).toNat := by
  unfold countPieces
  rw [(map.perm_insert fits value).countP_eq, List.countP_cons]
  cases test value <;> simp

theorem countPieces_insert_le (map : IntervalMap α) (target : Interval)
    (value : α) (test : α → Bool) :
    (map.insert target value).countPieces test ≤
      map.countPieces test + (test value).toNat := by
  by_cases fits : map.Fits target
  · exact Nat.le_of_eq (map.countPieces_insert fits value test)
  · simp [insert, fits]

theorem countPieces_insert_of_false (map : IntervalMap α) (target : Interval)
    {value : α} {test : α → Bool} (fails : test value = false) :
    (map.insert target value).countPieces test = map.countPieces test := by
  by_cases fits : map.Fits target
  · simp [map.countPieces_insert fits, fails]
  · simp [insert, fits]

private theorem countP_split (piece : Piece α) (target : Interval)
    (meets : piece.interval.Meets target) (value : Option α)
    (test : α → Bool) :
    (piece.split target value).countP (fun part => test part.value) =
      piece.sides target * (test piece.value).toNat +
        (value.elim 0 fun found => (test found).toNat) := by
  unfold Piece.split Piece.sides
  rw [if_pos meets]
  rcases value with _ | found
  · cases outcome : test piece.value <;> split <;> split <;>
      simp [outcome]
  · cases outcome : test piece.value <;> cases foundTest : test found <;>
      split <;> split <;> simp [outcome, foundTest]

/-- The pieces beside the target are new ones with the old value. -/
theorem countPieces_replace (map : IntervalMap α) {piece : Piece α}
    (member : piece ∈ map.pieces) {target : Interval}
    (meets : piece.interval.Meets target) (value : Option α)
    (test : α → Bool) :
    (map.replace piece target value).countPieces test +
        (test piece.value).toNat =
      map.countPieces test +
        piece.sides target * (test piece.value).toNat +
        (value.elim 0 fun found => (test found).toNat) := by
  obtain ⟨before, after, equality, replaced⟩ :=
    map.pieces_replace member target value
  unfold countPieces
  rw [equality, replaced]
  simp only [List.countP_append, List.countP_cons,
    countP_split piece target meets]
  cases test piece.value <;> simp <;> omega

/-- A whole piece gets another value. -/
theorem countPieces_replace_same (map : IntervalMap α) {piece : Piece α}
    (member : piece ∈ map.pieces) {value : α} {test : α → Bool}
    (same : test value = test piece.value) :
    (map.replace piece piece.interval (some value)).countPieces test =
      map.countPieces test := by
  have replaced := map.countPieces_replace member
    (Interval.meets_self (map.nonempty piece member)) (some value) test
  have sides : piece.sides piece.interval = 0 := by simp [Piece.sides]
  rw [Option.elim_some, same, sides] at replaced
  omega

theorem replace_ne_nil (map : IntervalMap α) {piece : Piece α}
    (member : piece ∈ map.pieces) {target : Interval}
    (meets : piece.interval.Meets target) (value : α) :
    (map.replace piece target (some value)).pieces ≠ [] := by
  refine List.ne_nil_of_mem (a := ⟨piece.interval.inter target, value⟩) ?_
  rw [map.mem_replace member]
  left
  simp [Piece.split, meets]

theorem countPieces_pos (map : IntervalMap α) {piece : Piece α}
    (member : piece ∈ map.pieces) {test : α → Bool}
    (holds : test piece.value = true) :
    0 < map.countPieces test :=
  List.countP_pos_iff.mpr ⟨piece, member, holds⟩

theorem countPieces_mapValues (map : IntervalMap α) (change : α → α)
    {test : α → Bool} (same : ∀ value, test (change value) = test value) :
    (map.mapValues change).countPieces test = map.countPieces test := by
  have pieces : (map.mapValues change).pieces =
      map.pieces.map fun piece => ⟨piece.interval, change piece.value⟩ := by
    change map.pieces.flatMap _ = _
    rw [← List.flatMap_pure_eq_map]
    rfl
  unfold countPieces
  rw [pieces, List.countP_map]
  congr 1
  funext piece
  exact same piece.value

theorem countPieces_mapMeeting (map : IntervalMap α) (target : Interval)
    (change : α → α) {test : α → Bool}
    (same : ∀ value, test (change value) = test value) :
    (map.mapMeeting target change).countPieces test = map.countPieces test := by
  have pieces : (map.mapMeeting target change).pieces =
      map.pieces.map fun piece =>
        ⟨piece.interval,
          if piece.interval.Meets target then change piece.value
          else piece.value⟩ := by
    change map.pieces.flatMap _ = _
    rw [← List.flatMap_pure_eq_map]
    rfl
  unfold countPieces
  rw [pieces, List.countP_map]
  congr 1
  funext piece
  simp only [Function.comp_apply]
  split
  · exact same piece.value
  · rfl

end IntervalMap

end Foundation
