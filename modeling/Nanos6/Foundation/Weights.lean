import Mathlib.Algebra.Order.Ring.Nat
import Mathlib.Tactic.Ring
import Nanos6.Foundation.IntervalMap

/-!
# Weights of interval maps

A weight on values gives a weight to a map of intervals: each address counts
with the weight of its value.  Splitting a piece does not change the weight of
a map, so a weight compares maps across any fragmentation.  Only the addresses
from a given one on are counted, so that a loop over a map can be measured by
what lies before it.
-/

namespace Foundation

universe u

namespace Interval

/-- The number of addresses from `low` on. -/
def lengthFrom (low : Nat) (interval : Interval) : Nat :=
  interval.stop - max interval.start low

theorem lengthFrom_pos {low : Nat} {interval : Interval}
    (positive : interval.Nonempty) (below : low < interval.stop) :
    0 < interval.lengthFrom low := by
  unfold lengthFrom Nonempty at *
  omega

theorem lengthFrom_mono (interval : Interval) {low high : Nat}
    (below : low ≤ high) :
    interval.lengthFrom high ≤ interval.lengthFrom low := by
  unfold lengthFrom
  omega

/-- The parts of an interval beside a target that it meets, and the part
inside, make up the whole. -/
theorem lengthFrom_split (low : Nat) {interval target : Interval}
    (meets : interval.Meets target) :
    (if interval.start < target.start then
        lengthFrom low ⟨interval.start, target.start⟩
      else 0) +
      (interval.inter target).lengthFrom low +
      (if target.stop < interval.stop then
        lengthFrom low ⟨target.stop, interval.stop⟩
      else 0) = interval.lengthFrom low := by
  unfold Meets inter Nonempty at meets
  unfold lengthFrom inter
  dsimp only at *
  split <;> split <;> omega

end Interval

namespace Piece

variable {α : Type u}

/-- The addresses of a piece from `low` on, each with the weight of the
value. -/
def weighFrom (low : Nat) (weight : α → Nat) (piece : Piece α) : Nat :=
  piece.interval.lengthFrom low * weight piece.value

end Piece

/-- The total weight of a list of pieces. -/
def weighPieces {α : Type u} (low : Nat) (weight : α → Nat)
    (pieces : List (Piece α)) : Nat :=
  (pieces.map (Piece.weighFrom low weight)).sum

section Pieces

variable {α : Type u} (low : Nat) (weight : α → Nat)

@[simp]
theorem weighPieces_nil : weighPieces low weight ([] : List (Piece α)) = 0 :=
  rfl

@[simp]
theorem weighPieces_cons (piece : Piece α) (rest : List (Piece α)) :
    weighPieces low weight (piece :: rest) =
      piece.weighFrom low weight + weighPieces low weight rest := by
  simp [weighPieces]

@[simp]
theorem weighPieces_append (first second : List (Piece α)) :
    weighPieces low weight (first ++ second) =
      weighPieces low weight first + weighPieces low weight second := by
  simp [weighPieces]

/-- Replacing the part of a piece inside of a target exchanges the weight of
that part. -/
theorem weighPieces_split {piece : Piece α} {target : Interval}
    (meets : piece.interval.Meets target) (value : Option α) :
    weighPieces low weight (piece.split target value) +
        (piece.interval.inter target).lengthFrom low * weight piece.value =
      piece.weighFrom low weight +
        (piece.interval.inter target).lengthFrom low *
          value.elim 0 weight := by
  have whole := Interval.lengthFrom_split low meets
  have weighed :
      weighPieces low weight (piece.split target value) =
        (if piece.interval.start < target.start then
          Interval.lengthFrom low ⟨piece.interval.start, target.start⟩
        else 0) * weight piece.value +
        ((piece.interval.inter target).lengthFrom low *
            value.elim 0 weight +
          (if target.stop < piece.interval.stop then
            Interval.lengthFrom low ⟨target.stop, piece.interval.stop⟩
          else 0) * weight piece.value) := by
    unfold Piece.split
    rw [if_pos meets]
    cases value <;> split <;> split <;> simp [Piece.weighFrom]
  rw [weighed, Piece.weighFrom, ← whole]
  ring

/-- Deleting the part of a piece inside of a target adds no weight. -/
theorem weighPieces_split_none_le (piece : Piece α) (target : Interval) :
    weighPieces low weight (piece.split target none) ≤
      piece.weighFrom low weight := by
  by_cases meets : piece.interval.Meets target
  · have exchanged := weighPieces_split low weight meets none
    simp only [Option.elim_none, Nat.mul_zero] at exchanged
    omega
  · simp [Piece.split, meets]

theorem weighPieces_flatMap_le {rewrite : Piece α → List (Piece α)}
    (lighter : ∀ piece,
      weighPieces low weight (rewrite piece) ≤ piece.weighFrom low weight)
    (pieces : List (Piece α)) :
    weighPieces low weight (pieces.flatMap rewrite) ≤
      weighPieces low weight pieces := by
  induction pieces with
  | nil => simp
  | cons piece rest inductionHypothesis =>
      rw [List.flatMap_cons, weighPieces_append, weighPieces_cons]
      exact Nat.add_le_add (lighter piece) inductionHypothesis

end Pieces

namespace IntervalMap

variable {α : Type u}

/-- The addresses of a map from `low` on, each with the weight of its value. -/
def weighFrom (low : Nat) (weight : α → Nat) (map : IntervalMap α) : Nat :=
  weighPieces low weight map.pieces

/-- The weight of a whole map. -/
def weigh (weight : α → Nat) (map : IntervalMap α) : Nat :=
  map.weighFrom 0 weight

@[simp]
theorem weigh_empty (weight : α → Nat) :
    (empty : IntervalMap α).weigh weight = 0 :=
  rfl

section Replace

variable (map : IntervalMap α) (low : Nat) (weight : α → Nat)
  {piece : Piece α} {target : Interval}

theorem weighFrom_replace (member : piece ∈ map.pieces)
    (meets : piece.interval.Meets target) (value : Option α) :
    (map.replace piece target value).weighFrom low weight +
        (piece.interval.inter target).lengthFrom low * weight piece.value =
      map.weighFrom low weight +
        (piece.interval.inter target).lengthFrom low *
          value.elim 0 weight := by
  obtain ⟨front, back, pieces, replaced⟩ :=
    map.pieces_replace member target value
  have exchanged := weighPieces_split low weight meets value
  unfold weighFrom
  rw [pieces, replaced]
  simp only [weighPieces_append, weighPieces_cons]
  omega

/-- A change that makes no value heavier makes no map heavier. -/
theorem weighFrom_replace_le (member : piece ∈ map.pieces)
    (meets : piece.interval.Meets target) {value : Option α}
    (lighter : value.elim 0 weight ≤ weight piece.value) :
    (map.replace piece target value).weighFrom low weight ≤
      map.weighFrom low weight := by
  have exchanged := map.weighFrom_replace low weight member meets value
  have scaled := Nat.mul_le_mul_left
    ((piece.interval.inter target).lengthFrom low) lighter
  omega

theorem weigh_replace_lt (member : piece ∈ map.pieces)
    (meets : piece.interval.Meets target) {value : Option α}
    (lighter : value.elim 0 weight < weight piece.value) :
    (map.replace piece target value).weigh weight < map.weigh weight := by
  have exchanged := map.weighFrom_replace 0 weight member meets value
  have positive : 0 < (piece.interval.inter target).lengthFrom 0 :=
    Interval.lengthFrom_pos meets (Nat.zero_lt_of_lt meets)
  have scaled := Nat.mul_lt_mul_of_pos_left lighter positive
  unfold weigh
  omega

theorem weighFrom_eraseInterval_le (target : Interval) :
    (map.eraseInterval target).weighFrom low weight ≤
      map.weighFrom low weight :=
  weighPieces_flatMap_le low weight
    (fun piece => weighPieces_split_none_le low weight piece target)
    map.pieces

theorem weighFrom_mapValues_le {change : α → α}
    (lighter : ∀ value, weight (change value) ≤ weight value) :
    (map.mapValues change).weighFrom low weight ≤
      map.weighFrom low weight := by
  refine weighPieces_flatMap_le low weight (fun piece => ?_) map.pieces
  simp only [weighPieces_cons, weighPieces_nil, Nat.add_zero,
    Piece.weighFrom]
  exact Nat.mul_le_mul_left _ (lighter piece.value)

theorem weighFrom_mapMeeting_le (target : Interval) {change : α → α}
    (lighter : ∀ value, weight (change value) ≤ weight value) :
    (map.mapMeeting target change).weighFrom low weight ≤
      map.weighFrom low weight := by
  refine weighPieces_flatMap_le low weight (fun piece => ?_) map.pieces
  simp only [weighPieces_cons, weighPieces_nil, Nat.add_zero,
    Piece.weighFrom]
  split
  · exact Nat.mul_le_mul_left _ (lighter piece.value)
  · exact le_refl _

/-- A loop that goes on behind a piece has less before it. -/
theorem weighFrom_lt_of_nextFrom (positive : ∀ value, 0 < weight value)
    (found : map.nextFrom low = some piece) :
    map.weighFrom piece.interval.stop weight < map.weighFrom low weight := by
  obtain ⟨member, below, _⟩ := map.nextFrom_eq_some found
  have shrinks : ∀ pieces : List (Piece α),
      weighPieces piece.interval.stop weight pieces ≤
        weighPieces low weight pieces := by
    intro pieces
    induction pieces with
    | nil => simp
    | cons head rest inductionHypothesis =>
        have shorter := head.interval.lengthFrom_mono below.le
        have scaled := Nat.mul_le_mul_right (weight head.value) shorter
        simp only [weighPieces_cons, Piece.weighFrom]
        omega
  obtain ⟨front, back, pieces⟩ := List.append_of_mem member
  have passed : piece.weighFrom piece.interval.stop weight = 0 := by
    unfold Piece.weighFrom Interval.lengthFrom
    rw [Nat.sub_eq_zero_of_le (le_max_right _ _), Nat.zero_mul]
  have ahead : 0 < piece.weighFrom low weight :=
    Nat.mul_pos (Interval.lengthFrom_pos (map.nonempty piece member) below)
      (positive piece.value)
  have inFront := shrinks front
  have behind := shrinks back
  unfold weighFrom
  rw [pieces]
  simp only [weighPieces_append, weighPieces_cons]
  omega

end Replace

end IntervalMap

end Foundation
