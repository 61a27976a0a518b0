import Mathlib.Algebra.BigOperators.Group.Finset.Basic
import Mathlib.Algebra.BigOperators.Group.List.Basic
import Mathlib.Tactic.Abel

/-!
# Calls in progress

Calls in progress are kept in a list.  One of them goes on as no, one or several
calls, and a sum over the calls changes by what it gives and takes.
-/

namespace Foundation

universe u v

variable {Call : Type u} {Amount : Type v} [AddCommMonoid Amount]

/-- The call at the index goes on as the calls given. -/
def replaceAt (calls : List Call) (index : Nat) (next : List Call) :
    List Call :=
  calls.take index ++ next ++ calls.drop (index + 1)

/-- What the calls have together. -/
def total (amount : Call → Amount) (calls : List Call) : Amount :=
  (calls.map amount).sum

section Calls

variable {calls : List Call} {index : Nat} {call : Call}

theorem split_at (found : calls[index]? = some call) :
    calls = calls.take index ++ call :: calls.drop (index + 1) := by
  obtain ⟨inside, rfl⟩ := List.getElem?_eq_some_iff.mp found
  rw [List.cons_getElem_drop_succ, List.take_append_drop]

@[simp]
theorem total_nil (amount : Call → Amount) : total amount [] = 0 :=
  rfl

@[simp]
theorem total_singleton (amount : Call → Amount) (only : Call) :
    total amount [only] = amount only := by
  simp [total]

theorem total_append (amount : Call → Amount) (first second : List Call) :
    total amount (first ++ second) =
      total amount first + total amount second := by
  simp [total]

theorem total_replaceAt (amount : Call → Amount) (next : List Call)
    (found : calls[index]? = some call) :
    total amount (replaceAt calls index next) + amount call =
      total amount calls + total amount next := by
  conv_rhs => rw [split_at found]
  simp only [replaceAt, total, List.map_append, List.map_cons,
    List.sum_append, List.sum_cons]
  abel

theorem getElem?_replaceAt_self (after : Call)
    (found : calls[index]? = some call) :
    (replaceAt calls index [after])[index]? = some after := by
  obtain ⟨inside, -⟩ := List.getElem?_eq_some_iff.mp found
  have length : (calls.take index).length = index :=
    List.length_take_of_le (Nat.le_of_lt inside)
  unfold replaceAt
  rw [List.append_assoc, List.getElem?_append_right length.le, length,
    Nat.sub_self]
  rfl

theorem map_replaceAt {Image : Type v} (image : Call → Image)
    (calls : List Call) (index : Nat) (next : List Call) :
    (replaceAt calls index next).map image =
      replaceAt (calls.map image) index (next.map image) := by
  simp [replaceAt, List.map_take, List.map_drop]

/-- The other calls stay. -/
theorem mem_replaceAt_or {next : List Call} {other : Call}
    (member : other ∈ replaceAt calls index next) :
    other ∈ next ∨ other ∈ calls.eraseIdx index := by
  rw [List.eraseIdx_eq_take_drop_succ, List.mem_append]
  simp only [replaceAt, List.mem_append] at member
  rcases member with (before | new) | after
  · exact Or.inr (Or.inl before)
  · exact Or.inl new
  · exact Or.inr (Or.inr after)

theorem mem_replaceAt {next : List Call} {other : Call}
    (member : other ∈ replaceAt calls index next) :
    other ∈ next ∨ other ∈ calls :=
  (mem_replaceAt_or member).imp_right List.mem_of_mem_eraseIdx

/-- Only the call that goes on can leave the list. -/
theorem eq_or_mem_replaceAt (next : List Call) {other : Call}
    (found : calls[index]? = some call) (member : other ∈ calls) :
    other = call ∨ other ∈ replaceAt calls index next := by
  rw [split_at found, List.mem_append, List.mem_cons] at member
  simp only [replaceAt, List.mem_append]
  rcases member with before | here | after
  · exact Or.inr (Or.inl (Or.inl before))
  · exact Or.inl here
  · exact Or.inr (Or.inr after)

/-- What holds of all calls holds after one of them has been exchanged. -/
theorem forall_replaceAt {holds : Call → Prop} {after : Call}
    (all : ∀ other ∈ calls, holds other) (new : holds after) :
    ∀ other ∈ replaceAt calls index [after], holds other := by
  intro other member
  rcases mem_replaceAt member with fresh | old
  · rw [List.mem_singleton.mp fresh]
    exact new
  · exact all other old

theorem total_eraseIdx (amount : Call → Amount)
    (found : calls[index]? = some call) :
    total amount (calls.eraseIdx index) + amount call =
      total amount calls := by
  have replaced := total_replaceAt amount [] found
  rw [total_nil, add_zero] at replaced
  rw [List.eraseIdx_eq_take_drop_succ, ← replaced]
  simp [replaceAt]

/-- What is counted nowhere is not at any call. -/
theorem eq_zero_of_total {amount : Call → Nat}
    (nothing : total amount calls = 0) {other : Call}
    (member : other ∈ calls) : amount other = 0 := by
  rw [total, List.sum_eq_zero_iff_forall_eq_nat] at nothing
  exact nothing _ (List.mem_map_of_mem member)

end Calls

/-- One entry of a list is changed. -/
theorem countP_modify {Entry : Type u} (test : Entry → Bool)
    (change : Entry → Entry) {entries : List Entry} {index : Nat}
    {entry : Entry} (found : entries[index]? = some entry) :
    (entries.modify index change).countP test + (test entry).toNat =
      entries.countP test + (test (change entry)).toNat := by
  induction entries generalizing index with
  | nil => cases found
  | cons first rest inductionHypothesis =>
      cases index with
      | zero =>
          cases found
          rw [List.modify_zero_cons, List.countP_cons, List.countP_cons]
          cases test entry <;> cases test (change entry) <;> simp
      | succ index =>
          have later := inductionHypothesis found
          rw [List.modify_succ_cons, List.countP_cons, List.countP_cons]
          omega

/-- One member of a list passes another test. -/
theorem countP_exchange {Entry : Type u} (before after : Entry → Bool)
    {entries : List Entry} (nodup : entries.Nodup) {entry : Entry}
    (member : entry ∈ entries)
    (others : ∀ other, other ≠ entry → after other = before other) :
    entries.countP after + (before entry).toNat =
      entries.countP before + (after entry).toNat := by
  induction entries with
  | nil => cases member
  | cons first rest inductionHypothesis =>
      obtain ⟨fresh, nodup⟩ := List.nodup_cons.mp nodup
      rcases List.mem_cons.mp member with rfl | later
      · have same : rest.countP after = rest.countP before :=
          List.countP_congr fun other inside => by
            rw [others other fun equal => fresh (equal ▸ inside)]
        rw [List.countP_cons, List.countP_cons, same]
        cases before entry <;> cases after entry <;> simp
      · have kept := inductionHypothesis nodup later
        have same : after first = before first :=
          others first fun equal => fresh (equal ▸ later)
        rw [List.countP_cons, List.countP_cons, same]
        omega

/-- Two sums that differ in one place. -/
theorem sum_exchange {Index : Type u} [DecidableEq Index]
    (first second : Index → Amount) {indices : Finset Index} {index : Index}
    (inside : index ∈ indices)
    (others : ∀ other, other ≠ index → first other = second other) :
    ∑ other ∈ indices, first other + second index =
      ∑ other ∈ indices, second other + first index := by
  rw [← Finset.add_sum_erase indices first inside,
    ← Finset.add_sum_erase indices second inside,
    Finset.sum_congr rfl fun other member =>
      others other (Finset.ne_of_mem_erase member)]
  abel

end Foundation
