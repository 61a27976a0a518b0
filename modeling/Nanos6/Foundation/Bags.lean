import Mathlib.Data.List.Nodup
import Mathlib.Logic.Function.Basic

/-!
# Items in bags

Items are kept in bags, and no item is in two bags or twice in one.  Items are
passed from one bag to another, and new ones are put into a bag.
-/

namespace Foundation

universe u v

variable {Item : Type u} {Bag : Type v}

/-- The items are in one bag each. -/
structure Bagged (contents : Bag → List Item) (items : List Item) : Prop where
  nodup : ∀ bag, (contents bag).Nodup
  apart : ∀ first second item, item ∈ contents first →
    item ∈ contents second → first = second
  mem_iff : ∀ item, item ∈ items ↔ ∃ bag, item ∈ contents bag

namespace Bagged

variable {contents after : Bag → List Item} {items : List Item}

theorem empty : Bagged (fun _ : Bag => ([] : List Item)) [] where
  nodup := fun _ => List.nodup_nil
  apart := fun _ _ _ member => by cases member
  mem_iff := by simp

/-- Two bags exchange items. -/
theorem exchange (bagged : Bagged contents items) {first second : Bag}
    (differ : first ≠ second)
    (same : ∀ bag, bag ≠ first → bag ≠ second → after bag = contents bag)
    (moved : (after first ++ after second).Perm
      (contents first ++ contents second)) : Bagged after items := by
  -- An item of the two bags was in one of them.
  have back : ∀ bag item, item ∈ after bag →
      item ∈ contents bag ∨ (bag = first ∨ bag = second) ∧
        (item ∈ contents first ∨ item ∈ contents second) := by
    intro bag item member
    by_cases isFirst : bag = first
    · right
      subst isFirst
      refine ⟨Or.inl rfl, ?_⟩
      rw [← List.mem_append, ← moved.mem_iff]
      exact List.mem_append_left _ member
    · by_cases isSecond : bag = second
      · right
        subst isSecond
        refine ⟨Or.inr rfl, ?_⟩
        rw [← List.mem_append, ← moved.mem_iff]
        exact List.mem_append_right _ member
      · left
        rw [← same bag isFirst isSecond]
        exact member
  have together : (after first ++ after second).Nodup := by
    rw [moved.nodup_iff]
    refine List.nodup_append.mpr
      ⟨bagged.nodup first, bagged.nodup second, ?_⟩
    rintro item inFirst _ inSecond rfl
    exact differ (bagged.apart first second item inFirst inSecond)
  obtain ⟨nodupFirst, nodupSecond, disjoint⟩ := List.nodup_append.mp together
  refine ⟨?_, ?_, ?_⟩
  · intro bag
    by_cases isFirst : bag = first
    · rw [isFirst]
      exact nodupFirst
    · by_cases isSecond : bag = second
      · rw [isSecond]
        exact nodupSecond
      · rw [same bag isFirst isSecond]
        exact bagged.nodup bag
  · intro one other item inOne inOther
    rcases back one item inOne with old | ⟨place, inBoth⟩
    · rcases back other item inOther with oldOther | ⟨placeOther, inBoth⟩
      · exact bagged.apart one other item old oldOther
      · have isOne : one = first ∨ one = second := by
          rcases inBoth with inFirst | inSecond
          · exact Or.inl (bagged.apart one first item old inFirst)
          · exact Or.inr (bagged.apart one second item old inSecond)
        rcases isOne with rfl | rfl <;> rcases placeOther with rfl | rfl
        · rfl
        · exact absurd rfl (disjoint item inOne item inOther)
        · exact absurd rfl (disjoint item inOther item inOne)
        · rfl
    · have isOther : other = first ∨ other = second := by
        rcases back other item inOther with old | ⟨placeOther, -⟩
        · rcases inBoth with inFirst | inSecond
          · exact Or.inl (bagged.apart other first item old inFirst)
          · exact Or.inr (bagged.apart other second item old inSecond)
        · exact placeOther
      rcases place with rfl | rfl <;> rcases isOther with rfl | rfl
      · rfl
      · exact absurd rfl (disjoint item inOne item inOther)
      · exact absurd rfl (disjoint item inOther item inOne)
      · rfl
  · intro item
    rw [bagged.mem_iff]
    have both : item ∈ after first ∨ item ∈ after second ↔
        item ∈ contents first ∨ item ∈ contents second := by
      rw [← List.mem_append, ← List.mem_append, moved.mem_iff]
    constructor
    · rintro ⟨bag, member⟩
      by_cases isFirst : bag = first
      · subst isFirst
        rcases both.mpr (Or.inl member) with here | there
        · exact ⟨bag, here⟩
        · exact ⟨second, there⟩
      · by_cases isSecond : bag = second
        · subst isSecond
          rcases both.mpr (Or.inr member) with here | there
          · exact ⟨first, here⟩
          · exact ⟨bag, there⟩
        · exact ⟨bag, by rw [same bag isFirst isSecond]; exact member⟩
    · rintro ⟨bag, member⟩
      rcases back bag item member with old | ⟨-, inFirst | inSecond⟩
      · exact ⟨bag, old⟩
      · exact ⟨first, inFirst⟩
      · exact ⟨second, inSecond⟩

/-- New items are put into a bag. -/
theorem extend (bagged : Bagged contents items) (bag : Bag)
    {new : List Item} (same : ∀ other, other ≠ bag →
      after other = contents other)
    (added : (after bag).Perm (new ++ contents bag)) (nodup : new.Nodup)
    (fresh : ∀ item ∈ new, item ∉ items) :
    Bagged after (new ++ items) := by
  have absent : ∀ item ∈ new, ∀ other, item ∉ contents other := by
    intro item member other inside
    exact fresh item member ((bagged.mem_iff item).mpr ⟨other, inside⟩)
  have back : ∀ other item, item ∈ after other →
      item ∈ contents other ∨ other = bag ∧ item ∈ new := by
    intro other item member
    by_cases here : other = bag
    · subst here
      rw [added.mem_iff, List.mem_append] at member
      exact member.symm.imp_right fun isNew => ⟨rfl, isNew⟩
    · rw [same other here] at member
      exact Or.inl member
  refine ⟨?_, ?_, ?_⟩
  · intro other
    by_cases here : other = bag
    · subst here
      rw [added.nodup_iff]
      refine List.nodup_append.mpr ⟨nodup, bagged.nodup other, ?_⟩
      rintro item isNew _ old rfl
      exact absent item isNew other old
    · rw [same other here]
      exact bagged.nodup other
  · intro first second item inFirst inSecond
    rcases back first item inFirst with old | ⟨rfl, isNew⟩
    · rcases back second item inSecond with oldSecond | ⟨-, isNew⟩
      · exact bagged.apart first second item old oldSecond
      · exact absurd old (absent item isNew first)
    · rcases back second item inSecond with old | ⟨rfl, -⟩
      · exact absurd old (absent item isNew second)
      · rfl
  · intro item
    rw [List.mem_append, bagged.mem_iff]
    constructor
    · rintro (isNew | ⟨other, old⟩)
      · exact ⟨bag, added.mem_iff.mpr (List.mem_append_left _ isNew)⟩
      · by_cases here : other = bag
        · subst here
          exact ⟨other, added.mem_iff.mpr (List.mem_append_right _ old)⟩
        · exact ⟨other, by rw [same other here]; exact old⟩
    · rintro ⟨other, member⟩
      rcases back other item member with old | ⟨-, isNew⟩
      · exact Or.inr ⟨other, old⟩
      · exact Or.inl isNew

end Bagged

end Foundation
