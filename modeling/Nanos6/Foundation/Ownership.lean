import Mathlib.Logic.Function.Basic

/-!
# Parties at points, and what only one of them has

Each party of a protocol is at some point.  What at most one party has at a time
(a lock, a mutex, a token) is given by a test on the points and the party that
passes it, if there is one; what several parties have is given by the list of
those that pass it.
-/

namespace Foundation

universe u v

variable {Party : Type u} {Point : Type v} [DecidableEq Party]

/-- The parties that pass the test are the owner, if there is one. -/
def OwnedBy (test : Point → Bool) (point : Party → Point)
    (owner : Option Party) : Prop :=
  ∀ party, test (point party) = true ↔ owner = some party

/-- The parties that pass the test are those of the list. -/
def ListedBy (test : Point → Bool) (point : Party → Point)
    (parties : List Party) : Prop :=
  ∀ party, test (point party) = true ↔ party ∈ parties

section Owned

variable {test : Point → Bool} {point : Party → Point}
  {owner : Option Party} {party : Party} {after : Point}

namespace OwnedBy

theorem unique (owned : OwnedBy test point owner) {first second : Party}
    (firstPasses : test (point first) = true)
    (secondPasses : test (point second) = true) : first = second := by
  rw [owned] at firstPasses secondPasses
  rw [firstPasses] at secondPasses
  exact Option.some.inj secondPasses

theorem owner_eq (owned : OwnedBy test point owner)
    (passes : test (point party) = true) : owner = some party :=
  (owned party).mp passes

/-- Only the party that moves can change its test. -/
theorem keep (owned : OwnedBy test point owner)
    (same : test after = test (point party)) :
    OwnedBy test (Function.update point party after) owner := by
  intro other
  by_cases equal : other = party
  · subst equal
    rw [Function.update_self, same]
    exact owned other
  · rw [Function.update_of_ne equal]
    exact owned other

theorem take (owned : OwnedBy test point none)
    (passes : test after = true) :
    OwnedBy test (Function.update point party after) (some party) := by
  intro other
  by_cases equal : other = party
  · subst equal
    simp [passes]
  · rw [Function.update_of_ne equal, owned]
    simp [Ne.symm equal]

theorem drop (owned : OwnedBy test point owner)
    (before : test (point party) = true) (fails : test after = false) :
    OwnedBy test (Function.update point party after) none := by
  intro other
  by_cases equal : other = party
  · subst equal
    simp [fails]
  · rw [Function.update_of_ne equal, owned, owned.owner_eq before]
    simp [Ne.symm equal]

end OwnedBy

namespace ListedBy

variable {parties : List Party}

theorem keep (listed : ListedBy test point parties)
    (same : test after = test (point party)) :
    ListedBy test (Function.update point party after) parties := by
  intro other
  by_cases equal : other = party
  · subst equal
    rw [Function.update_self, same]
    exact listed other
  · rw [Function.update_of_ne equal]
    exact listed other

theorem add (listed : ListedBy test point parties)
    (passes : test after = true) :
    ListedBy test (Function.update point party after)
      (parties ++ [party]) := by
  intro other
  by_cases equal : other = party
  · subst equal
    simp [passes]
  · rw [Function.update_of_ne equal, listed]
    simp [equal]

/-- The first party of the list leaves it. -/
theorem tail (listed : ListedBy test point (party :: parties))
    (fresh : party ∉ parties) (fails : test after = false) :
    ListedBy test (Function.update point party after) parties := by
  intro other
  by_cases equal : other = party
  · subst equal
    simp [fails, fresh]
  · rw [Function.update_of_ne equal, listed]
    simp [equal]

end ListedBy

end Owned

end Foundation
