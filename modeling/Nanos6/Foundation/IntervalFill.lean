import Nanos6.Foundation.IntervalMap

/-!
# Filling the gaps of a map

A map can be given a value for each address of an interval: its pieces are cut at the
borders of the interval, those inside are changed, and the parts of the interval that
no piece covers are inserted.  Here is what that does to each address.
-/

namespace Foundation

universe u

variable {α : Type u}

namespace IntervalMap

/-! ## Cutting -/

/-- A part of a cut piece lies inside the target or apart from it. -/
theorem mem_cut (map : IntervalMap α) {target : Interval} {part : Piece α}
    (member : part ∈ (map.cut target).pieces) :
    (∃ piece ∈ map.pieces, part.value = piece.value ∧
      ∀ address ∈ part.interval, address ∈ piece.interval) ∧
      ((∀ address ∈ part.interval, address ∈ target) ∨
        ¬ part.interval.Meets target) := by
  obtain ⟨piece, pieceMember, inSplit⟩ := List.mem_flatMap.mp member
  have within := (Piece.mem_split inSplit).1
  rcases Piece.split_cases inSplit with
    ⟨apart, rfl⟩ | ⟨_, ⟨_, rfl⟩ | ⟨found, same, rfl⟩ | ⟨_, rfl⟩⟩
  · exact ⟨⟨part, pieceMember, rfl, fun _ inside => inside⟩, Or.inr apart⟩
  · refine ⟨⟨piece, pieceMember, rfl, within⟩, Or.inr ?_⟩
    simp only [Interval.Meets, Interval.Nonempty, Interval.inter]
    omega
  · exact ⟨⟨piece, pieceMember, (Option.some.inj same).symm, within⟩,
      Or.inl fun address inside => (Interval.mem_inter.mp inside).2⟩
  · refine ⟨⟨piece, pieceMember, rfl, within⟩, Or.inr ?_⟩
    simp only [Interval.Meets, Interval.Nonempty, Interval.inter]
    omega

/-- A cut does not change what is read. -/
theorem lookup_cut (map : IntervalMap α) (target : Interval)
    (address : Nat) :
    (map.cut target).lookup address = map.lookup address := by
  apply lookup_congr
  intro value
  constructor
  · rintro ⟨part, member, inside, rfl⟩
    obtain ⟨⟨piece, pieceMember, same, within⟩, -⟩ := map.mem_cut member
    exact ⟨piece, pieceMember, within address inside, same.symm⟩
  · rintro ⟨piece, member, inside, rfl⟩
    by_cases inTarget : address ∈ target
    · exact ⟨⟨piece.interval.inter target, piece.value⟩,
        List.mem_flatMap.mpr
          ⟨piece, member, Piece.split_target inside inTarget⟩,
        Interval.mem_inter.mpr ⟨inside, inTarget⟩, rfl⟩
    · obtain ⟨part, inSplit, inPart, same⟩ :=
        Piece.split_outside (some piece.value) inside inTarget
      exact ⟨part, List.mem_flatMap.mpr ⟨piece, member, inSplit⟩, inPart,
        same⟩

/-- After the cut the change is made to the addresses of the target only. -/
theorem lookup_mapMeeting_cut (map : IntervalMap α) (target : Interval)
    (change : α → α) (address : Nat) :
    ((map.cut target).mapMeeting target change).lookup address =
      if address ∈ target then (map.lookup address).map change
      else map.lookup address := by
  obtain ⟨meets, met, changed⟩ :=
    (map.cut target).lookup_mapMeeting target change address
  by_cases inTarget : address ∈ target
  · rw [changed, met inTarget, if_pos rfl, if_pos inTarget, lookup_cut]
  · rw [if_neg inTarget, ← map.lookup_cut target address]
    apply lookup_congr
    intro value
    constructor
    · rintro ⟨part, member, inside, rfl⟩
      obtain ⟨piece, pieceMember, rfl⟩ := (mem_mapMeeting _).mp member
      refine ⟨piece, pieceMember, inside, ?_⟩
      rcases (map.mem_cut pieceMember).2 with within | apart
      · exact absurd (within address inside) inTarget
      · exact (if_neg apart).symm
    · rintro ⟨piece, member, inside, rfl⟩
      refine ⟨_, (mem_mapMeeting _).mpr ⟨piece, member, rfl⟩, inside, ?_⟩
      rcases (map.mem_cut member).2 with within | apart
      · exact absurd (within address inside) inTarget
      · exact if_neg apart

/-! ## Gaps -/

/-- What the gaps of a sorted list are. -/
structure AreGaps (low high : Nat) (pieces : List (Piece α))
    (gaps : List Interval) : Prop where
  nonempty : ∀ gap ∈ gaps, gap.Nonempty
  within : ∀ gap ∈ gaps, low ≤ gap.start ∧ gap.stop ≤ high
  sorted : gaps.Pairwise fun first second => first.stop ≤ second.start
  covered : ∀ address, (∃ gap ∈ gaps, address ∈ gap) ↔
    low ≤ address ∧ address < high ∧
      ∀ piece ∈ pieces, address ∉ piece.interval

/-- No piece is left before the end. -/
theorem areGaps_rest {low high : Nat} {pieces : List (Piece α)}
    (apart : ∀ piece ∈ pieces, ∀ address, low ≤ address → address < high →
      address ∉ piece.interval) :
    AreGaps low high pieces (if low < high then [⟨low, high⟩] else []) := by
  split
  · rename_i positive
    refine ⟨?_, ?_, List.pairwise_singleton _ _, ?_⟩
    · intro gap member
      rw [List.mem_singleton.mp member]
      exact positive
    · intro gap member
      rw [List.mem_singleton.mp member]
      exact ⟨Nat.le_refl _, Nat.le_refl _⟩
    · intro address
      constructor
      · rintro ⟨gap, member, inside⟩
        rw [List.mem_singleton.mp member] at inside
        exact ⟨inside.1, inside.2, fun piece isPiece =>
          apart piece isPiece address inside.1 inside.2⟩
      · rintro ⟨above, below, -⟩
        exact ⟨⟨low, high⟩, List.mem_singleton.mpr rfl, above, below⟩
  · rename_i nothing
    refine ⟨by simp, by simp, List.Pairwise.nil, ?_⟩
    intro address
    constructor
    · rintro ⟨gap, member, -⟩
      cases member
    · rintro ⟨above, below, -⟩
      omega

theorem areGaps_gapsFrom (high : Nat) {pieces : List (Piece α)}
    (nonempty : ∀ piece ∈ pieces, piece.interval.Nonempty)
    (ordered : Ordered pieces) (low : Nat) :
    AreGaps low high pieces (gapsFrom high low pieces) := by
  induction pieces generalizing low with
  | nil => exact areGaps_rest (by simp)
  | cons piece rest inductionHypothesis =>
      obtain ⟨before, restOrdered⟩ := List.pairwise_cons.mp ordered
      have positive := nonempty piece List.mem_cons_self
      have later := inductionHypothesis
        (fun other member => nonempty other (List.mem_cons_of_mem _ member))
        restOrdered
      simp only [Interval.Nonempty] at positive
      unfold gapsFrom
      split
      · rename_i isOver
        obtain ⟨gapNonempty, within, sorted, covered⟩ := later low
        refine ⟨gapNonempty, within, sorted, fun address => ?_⟩
        rw [covered]
        refine and_congr_right fun above => and_congr_right fun below => ?_
        rw [List.forall_mem_cons]
        refine (and_iff_right ?_).symm
        simp only [Interval.mem_iff]
        omega
      · split
        · rename_i beyond
          apply areGaps_rest
          intro other member address above below inside
          simp only [Interval.mem_iff] at inside
          rcases List.mem_cons.mp member with rfl | later
          · omega
          · have bound := before other later
            omega
        · obtain ⟨gapNonempty, within, sorted, covered⟩ :=
            later piece.interval.stop
          have free : ∀ address, address < piece.interval.start →
              ∀ other ∈ rest, address ∉ other.interval := by
            intro address below other member inside
            simp only [Interval.mem_iff] at inside
            have bound := before other member
            omega
          split
          · rename_i isOver beyond starts
            refine ⟨List.forall_mem_cons.mpr ⟨starts, gapNonempty⟩,
              List.forall_mem_cons.mpr ⟨⟨Nat.le_refl _, ?_⟩, ?_⟩,
              List.pairwise_cons.mpr ⟨?_, sorted⟩, fun address => ?_⟩
            · change piece.interval.start ≤ high
              omega
            · intro gap member
              have bounds := within gap member
              omega
            · intro gap member
              have bounds := within gap member
              change piece.interval.start ≤ gap.start
              omega
            · simp only [List.mem_cons, exists_eq_or_imp, forall_eq_or_imp]
              rw [covered]
              simp only [Interval.mem_iff]
              constructor
              · rintro (⟨above, below⟩ | ⟨above, below, outside⟩)
                · exact ⟨above, by omega, by omega, free address below⟩
                · exact ⟨by omega, below, by omega, outside⟩
              · rintro ⟨above, below, apart, outside⟩
                by_cases first : address < piece.interval.start
                · exact Or.inl ⟨above, first⟩
                · exact Or.inr ⟨by omega, below, outside⟩
          · refine ⟨gapNonempty, fun gap member => ?_, sorted,
              fun address => ?_⟩
            · have bounds := within gap member
              omega
            · rw [covered, List.forall_mem_cons]
              simp only [Interval.mem_iff]
              constructor
              · rintro ⟨above, below, outside⟩
                exact ⟨by omega, below, by omega, outside⟩
              · rintro ⟨above, below, apart, outside⟩
                exact ⟨by omega, below, outside⟩

theorem areGaps_gaps (map : IntervalMap α) (target : Interval) :
    AreGaps target.start target.stop map.pieces (map.gaps target) :=
  areGaps_gapsFrom target.stop map.nonempty map.ordered target.start

/-! ## Filling -/

/-- The value is inserted for each interval of a list. -/
theorem lookup_foldl_insert (map : IntervalMap α) (value : α)
    {gaps : List Interval} (nonempty : ∀ gap ∈ gaps, gap.Nonempty)
    (sorted : gaps.Pairwise fun first second => first.stop ≤ second.start)
    (free : ∀ gap ∈ gaps, ∀ address ∈ gap, map.lookup address = none)
    (address : Nat) :
    (gaps.foldl (fun map gap => map.insert gap value) map).lookup address =
      if ∃ gap ∈ gaps, address ∈ gap then some value
      else map.lookup address := by
  induction gaps generalizing map with
  | nil => simp
  | cons gap rest inductionHypothesis =>
      obtain ⟨positive, restNonempty⟩ := List.forall_mem_cons.mp nonempty
      obtain ⟨before, restSorted⟩ := List.pairwise_cons.mp sorted
      obtain ⟨gapFree, restFree⟩ := List.forall_mem_cons.mp free
      have fits := map.fits_of_lookup positive gapFree
      have stillFree : ∀ other ∈ rest, ∀ address ∈ other,
          (map.insert gap value).lookup address = none := by
        intro other member address inside
        have outside : address ∉ gap := by
          intro inGap
          have bound := before other member
          simp only [Interval.mem_iff] at inside inGap
          omega
        rw [map.lookup_insert fits, if_neg outside]
        exact restFree other member address inside
      rw [List.foldl_cons, inductionHypothesis _ restNonempty restSorted
        stillFree, map.lookup_insert fits]
      simp only [List.mem_cons, exists_eq_or_imp]
      by_cases later : ∃ other ∈ rest, address ∈ other
      · rw [if_pos later, if_pos (Or.inr later)]
      · rw [if_neg later]
        by_cases inside : address ∈ gap
        · rw [if_pos inside, if_pos (Or.inl inside)]
        · rw [if_neg inside, if_neg fun found => found.elim inside later]

/-- The addresses of the target that have no value get one. -/
theorem lookup_fillGaps (map source : IntervalMap α) (target : Interval)
    (value : α) (same : ∀ address, map.lookup address = none ↔
      source.lookup address = none) (address : Nat) :
    ((source.gaps target).foldl (fun map gap => map.insert gap value)
      map).lookup address =
      if address ∈ target ∧ map.lookup address = none then some value
      else map.lookup address := by
  obtain ⟨nonempty, -, sorted, covered⟩ := source.areGaps_gaps target
  have uncovered : ∀ address, (∃ gap ∈ source.gaps target, address ∈ gap) ↔
      address ∈ target ∧ map.lookup address = none := by
    intro address
    rw [covered, same, source.lookup_eq_none, Interval.mem_iff, and_assoc]
  rw [map.lookup_foldl_insert value nonempty sorted]
  · simp only [uncovered]
  · intro gap member address inside
    exact ((uncovered address).mp ⟨gap, member, inside⟩).2

end IntervalMap

end Foundation
