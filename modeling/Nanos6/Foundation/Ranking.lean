import Mathlib.Data.DFinsupp.WellFounded
import Mathlib.Order.Interval.Finset.Nat
import Mathlib.Order.OrderIsoNat

/-!
# Ranking by levels

A load assigns a number to each of finitely many levels.  Loads are compared
lexicographically: a step that lowers one level may raise every level after it.
A sequence of steps that never go up can go down finitely often only.

A relation whose edges go down some rank has no cycles.
-/

namespace Foundation

universe u

section Levels

variable {Level : Type u} [LinearOrder Level]

/-- One level is lowered and none before it is raised. -/
def LowersAt (level : Level) (before after : Level → Nat) : Prop :=
  (∀ earlier, earlier < level → after earlier ≤ before earlier) ∧
    after level < before level

/-- No level is raised. -/
def NeverRaises (before after : Level → Nat) : Prop :=
  ∀ level, after level ≤ before level

variable [WellFoundedLT Level] {before after : Level → Nat}

theorem toLex_lt_of_lowersAt {level : Level}
    (lowers : LowersAt level before after) :
    toLex after < toLex before := by
  obtain ⟨first, lowered, least⟩ :=
    WellFounded.has_min wellFounded_lt
      {other | other ≤ level ∧ after other < before other}
      ⟨level, le_refl level, lowers.2⟩
  refine ⟨first, fun earlier isEarlier => ?_, lowered.2⟩
  -- before the first level that is lowered, every level stays as it is
  have below : earlier < level := lt_of_lt_of_le isEarlier lowered.1
  refine le_antisymm (lowers.1 earlier below) (not_lt.mp fun smaller => ?_)
  exact least earlier ⟨below.le, smaller⟩ isEarlier

theorem toLex_le_of_neverRaises (never : NeverRaises before after) :
    toLex after ≤ toLex before :=
  Pi.toLex_monotone never

end Levels

section Sequences

variable {Rank : Type u} [PartialOrder Rank] [WellFoundedLT Rank]

/-- From some point on the rank of a sequence never goes up, and it goes down
at every marked index: then there are finitely many marked indices. -/
theorem finite_of_lowered (rank : Nat → Rank) (start : Nat)
    {marked : Set Nat}
    (kept : ∀ index, start ≤ index → rank (index + 1) ≤ rank index)
    (lowered : ∀ index, start ≤ index → index ∈ marked →
      rank (index + 1) < rank index) :
    marked.Finite := by
  have antitone : Antitone fun index => rank (start + index) :=
    antitone_nat_of_succ_le fun index => kept (start + index) (by omega)
  obtain ⟨last, constant⟩ :=
    WellFoundedLT.antitone_chain_condition antitone
  refine (Set.finite_lt_nat (start + last)).subset fun index isMarked => ?_
  by_contra notBefore
  have after : start + last ≤ index := not_lt.mp notBefore
  have now := constant (index - start) (by omega)
  have later := constant (index + 1 - start) (by omega)
  rw [Nat.add_sub_cancel' (by omega)] at now later
  have strict := lowered index (by omega) isMarked
  rw [← now, ← later] at strict
  exact lt_irrefl _ strict

end Sequences

section Relations

variable {Node : Type u} {edge larger : Node → Node → Prop}

/-- Every edge goes down, so that no path comes back to where it started. -/
def IsRanked (edge : Node → Node → Prop) : Prop :=
  ∃ rank : Node → Nat, ∀ source target,
    edge source target → rank target < rank source

theorem IsRanked.mono (ranked : IsRanked larger)
    (fewer : ∀ source target, edge source target → larger source target) :
    IsRanked edge := by
  obtain ⟨rank, lower⟩ := ranked
  exact ⟨rank, fun source target isEdge =>
    lower source target (fewer source target isEdge)⟩

/-- A node without edges may be put between two others, unless a path leads
back from the lower one to the upper one. -/
theorem IsRanked.insert (ranked : IsRanked edge) (node : Node)
    (upper lower : Option Node)
    (alone : ∀ other, ¬ edge node other ∧ ¬ edge other node)
    (apart : ∀ above ∈ upper, above ≠ node ∧
      ∀ below ∈ lower, ¬ Relation.ReflTransGen edge below above)
    (distinct : ∀ below ∈ lower, below ≠ node)
    (edges : ∀ source target, larger source target →
      edge source target ∨ source ∈ upper ∧ target = node ∨
        source = node ∧ target ∈ lower) :
    IsRanked larger := by
  classical
  obtain ⟨rank, lowers⟩ := ranked
  let level : Nat := lower.elim 0 fun below => rank below + 1
  let reaches (other : Node) : Prop :=
    ∃ above ∈ upper, Relation.ReflTransGen edge other above
  -- What leads to the upper node is raised above the new one.
  refine ⟨fun other =>
    if other = node then level
    else if reaches other then rank other + level + 1 else rank other,
    fun source target isEdge => ?_⟩
  rcases edges source target isEdge with old | ⟨isUpper, rfl⟩ | ⟨rfl, isLower⟩
  · have sourceOther : source ≠ node := by
      rintro rfl
      exact (alone target).1 old
    have targetOther : target ≠ node := by
      rintro rfl
      exact (alone source).2 old
    have closer := lowers source target old
    simp only [if_neg sourceOther, if_neg targetOther]
    by_cases leads : reaches target
    · obtain ⟨above, isUpper, path⟩ := leads
      have sourceLeads : reaches source := ⟨above, isUpper, .head old path⟩
      rw [if_pos ⟨above, isUpper, path⟩, if_pos sourceLeads]
      omega
    · rw [if_neg leads]
      split
      · omega
      · exact closer
  · have leads : reaches source := ⟨source, isUpper, .refl⟩
    simp only [if_pos, if_neg (apart source isUpper).1, if_pos leads]
    omega
  · have apartBelow : ¬ reaches target := by
      rintro ⟨above, isUpper, path⟩
      exact (apart above isUpper).2 target isLower path
    have isLevel : level = rank target + 1 := by
      change lower.elim 0 _ = _
      rw [Option.mem_def.mp isLower]
      rfl
    simp only [if_pos, if_neg (distinct target isLower), if_neg apartBelow,
      isLevel]
    exact Nat.lt_succ_self _

end Relations

end Foundation
