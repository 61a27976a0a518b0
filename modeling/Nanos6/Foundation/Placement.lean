import Mathlib.Data.List.Perm.Basic
import Mathlib.Logic.Function.Basic

/-!
# Items in exactly one place

Items are kept in a queue and in cells that hold at most one item each.  A
placement says for every item where it is, and the contents agree with it, so
no item is in two places.  Every movement is a removal followed by an insertion.

Where items may get lost there is no placement, and only the weaker half is
left: no item is in two places, and all that are somewhere are present.
-/

namespace Foundation

universe u v

variable {Item : Type u} {Cell : Type v} [DecidableEq Item] [DecidableEq Cell]

inductive Location (Cell : Type v) where
  | outside
  | queue
  | cell (cell : Cell)
  deriving DecidableEq

/-- The contents of the queue and of the cells agree with the placement. -/
structure Placed (queue : List Item) (content : Cell → Option Item)
    (place : Item → Location Cell) : Prop where
  nodup : queue.Nodup
  queued : ∀ item, item ∈ queue ↔ place item = .queue
  contained : ∀ item cell, content cell = some item ↔ place item = .cell cell

namespace Placed

variable {queue : List Item} {content : Cell → Option Item}
  {place : Item → Location Cell} {item : Item} {cell : Cell}

theorem takeFromCell (placed : Placed queue content place)
    (full : content cell = some item) :
    Placed queue (Function.update content cell none)
      (Function.update place item .outside) where
  nodup := placed.nodup
  queued := by
    intro other
    by_cases same : other = item
    · subst same
      have elsewhere := (placed.contained other cell).mp full
      simp [placed.queued, elsewhere]
    · simp [same, placed.queued]
  contained := by
    intro other position
    by_cases there : position = cell
    · subst there
      by_cases same : other = item
      · simp [same]
      · have apart : place other ≠ .cell position := by
          intro here
          rw [← placed.contained, full] at here
          exact same (Option.some.inj here).symm
        simp [same, apart]
    · by_cases same : other = item
      · subst same
        have elsewhere := (placed.contained other cell).mp full
        have apart : content position ≠ some other := by
          intro here
          rw [placed.contained, elsewhere] at here
          exact there (Location.cell.inj here).symm
        simp [there, apart]
      · simp [there, same, placed.contained]

theorem putInCell (placed : Placed queue content place)
    (outside : place item = .outside) (empty : content cell = none) :
    Placed queue (Function.update content cell (some item))
      (Function.update place item (.cell cell)) where
  nodup := placed.nodup
  queued := by
    intro other
    by_cases same : other = item
    · subst same
      simp [placed.queued, outside]
    · simp [same, placed.queued]
  contained := by
    intro other position
    by_cases there : position = cell
    · subst there
      by_cases same : other = item
      · simp [same]
      · have apart : place other ≠ .cell position := by
          intro here
          rw [← placed.contained, empty] at here
          cases here
        simp [same, apart, Ne.symm same]
    · by_cases same : other = item
      · subst same
        have apart : content position ≠ some other := by
          intro here
          rw [placed.contained, outside] at here
          cases here
        simp [there, apart, Ne.symm there]
      · simp [there, same, placed.contained]

theorem takeFromQueue (placed : Placed queue content place)
    {rest : List Item} (split : queue.Perm (item :: rest)) :
    Placed rest content (Function.update place item .outside) where
  nodup := ((split.nodup_iff).mp placed.nodup).of_cons
  queued := by
    intro other
    have once := (List.nodup_cons.mp ((split.nodup_iff).mp placed.nodup)).1
    have member := placed.queued other
    rw [split.mem_iff, List.mem_cons] at member
    by_cases same : other = item
    · subst same
      simp [once]
    · simpa [same] using member
  contained := by
    intro other position
    by_cases same : other = item
    · subst same
      have here : place other = .queue :=
        (placed.queued other).mp (split.mem_iff.mpr (List.mem_cons_self ..))
      simp [placed.contained, here]
    · simp [same, placed.contained]

theorem putInQueue (placed : Placed queue content place)
    (outside : place item = .outside) {longer : List Item}
    (inserted : longer.Perm (item :: queue)) :
    Placed longer content (Function.update place item .queue) where
  nodup := by
    rw [inserted.nodup_iff, List.nodup_cons]
    refine ⟨?_, placed.nodup⟩
    rw [placed.queued, outside]
    simp
  queued := by
    intro other
    rw [inserted.mem_iff, List.mem_cons]
    by_cases same : other = item
    · simp [same]
    · simp [same, placed.queued]
  contained := by
    intro other position
    by_cases same : other = item
    · subst same
      simp [placed.contained, outside]
    · simp [same, placed.contained]

end Placed

/-- No item is in two places, and only present items are in any. -/
structure Separate (present : Item → Prop) (queue : List Item)
    (content : Cell → Option Item) : Prop where
  nodup : queue.Nodup
  queued : ∀ item ∈ queue, present item ∧ ∀ cell, content cell ≠ some item
  contained : ∀ item cell, content cell = some item →
    present item ∧ ∀ other, content other = some item → other = cell

namespace Separate

variable {present : Item → Prop} {queue : List Item}
  {content : Cell → Option Item} {item : Item} {cell : Cell}

theorem mono (separate : Separate present queue content)
    {larger : Item → Prop} (included : ∀ item, present item → larger item) :
    Separate larger queue content where
  nodup := separate.nodup
  queued := fun item member =>
    ⟨included item (separate.queued item member).1,
      (separate.queued item member).2⟩
  contained := fun item cell full =>
    ⟨included item (separate.contained item cell full).1,
      (separate.contained item cell full).2⟩

/-- Whatever a cell holds may be forgotten. -/
theorem drop (separate : Separate present queue content) (cell : Cell) :
    Separate present queue (Function.update content cell none) where
  nodup := separate.nodup
  queued := by
    intro item member
    refine ⟨(separate.queued item member).1, ?_⟩
    intro position
    by_cases there : position = cell
    · simp [there]
    · rw [Function.update_of_ne there]
      exact (separate.queued item member).2 position
  contained := by
    intro item position full
    by_cases there : position = cell
    · simp [there] at full
    · rw [Function.update_of_ne there] at full
      refine ⟨(separate.contained item position full).1, ?_⟩
      intro other also
      by_cases here : other = cell
      · simp [here] at also
      · rw [Function.update_of_ne here] at also
        exact (separate.contained item position full).2 other also

theorem takeFromCell (separate : Separate present queue content)
    (full : content cell = some item) :
    Separate (fun other => present other ∧ other ≠ item) queue
      (Function.update content cell none) where
  nodup := separate.nodup
  queued := by
    intro other member
    have kept := (separate.drop cell).queued other member
    refine ⟨⟨kept.1, ?_⟩, kept.2⟩
    rintro rfl
    exact (separate.queued other member).2 cell full
  contained := by
    intro other position held
    have kept := (separate.drop cell).contained other position held
    refine ⟨⟨kept.1, ?_⟩, kept.2⟩
    rintro rfl
    by_cases there : position = cell
    · simp [there] at held
    · rw [Function.update_of_ne there] at held
      exact there ((separate.contained other cell full).2 position held)

/-- An absent item may be put in any cell; what was there is forgotten. -/
theorem putInCell (separate : Separate present queue content)
    (absent : ¬ present item) (cell : Cell) :
    Separate (fun other => present other ∨ other = item) queue
      (Function.update content cell (some item)) where
  nodup := separate.nodup
  queued := by
    intro other member
    obtain ⟨isPresent, elsewhere⟩ := separate.queued other member
    refine ⟨Or.inl isPresent, ?_⟩
    intro position
    by_cases there : position = cell
    · subst there
      rw [Function.update_self]
      rintro ⟨⟩
      exact absent isPresent
    · rw [Function.update_of_ne there]
      exact elsewhere position
  contained := by
    have apart : ∀ position, content position ≠ some item :=
      fun position held => absent (separate.contained item position held).1
    intro other position held
    by_cases there : position = cell
    · subst there
      rw [Function.update_self] at held
      cases held
      refine ⟨Or.inr rfl, ?_⟩
      intro another also
      by_contra differ
      rw [Function.update_of_ne differ] at also
      exact apart another also
    · rw [Function.update_of_ne there] at held
      obtain ⟨isPresent, unique⟩ := separate.contained other position held
      refine ⟨Or.inl isPresent, ?_⟩
      intro another also
      by_cases here : another = cell
      · subst here
        rw [Function.update_self] at also
        cases also
        exact (absent isPresent).elim
      · rw [Function.update_of_ne here] at also
        exact unique another also

theorem takeFromQueue (separate : Separate present queue content)
    {rest : List Item} (split : queue.Perm (item :: rest)) :
    Separate (fun other => present other ∧ other ≠ item) rest content where
  nodup := ((split.nodup_iff).mp separate.nodup).of_cons
  queued := by
    intro other member
    have once := (List.nodup_cons.mp ((split.nodup_iff).mp separate.nodup)).1
    have kept := separate.queued other
      (split.mem_iff.mpr (List.mem_cons_of_mem _ member))
    refine ⟨⟨kept.1, ?_⟩, kept.2⟩
    rintro rfl
    exact once member
  contained := by
    intro other position held
    obtain ⟨isPresent, unique⟩ := separate.contained other position held
    refine ⟨⟨isPresent, ?_⟩, unique⟩
    rintro rfl
    exact (separate.queued other
      (split.mem_iff.mpr (List.mem_cons_self ..))).2 position held

theorem putInQueue (separate : Separate present queue content)
    (absent : ¬ present item) {longer : List Item}
    (inserted : longer.Perm (item :: queue)) :
    Separate (fun other => present other ∨ other = item) longer content where
  nodup := by
    rw [inserted.nodup_iff, List.nodup_cons]
    exact ⟨fun member => absent (separate.queued item member).1,
      separate.nodup⟩
  queued := by
    intro other member
    rw [inserted.mem_iff, List.mem_cons] at member
    obtain rfl | member := member
    · exact ⟨Or.inr rfl, fun position held =>
        absent (separate.contained other position held).1⟩
    · exact ⟨Or.inl (separate.queued other member).1,
        (separate.queued other member).2⟩
  contained := fun other position held =>
    ⟨Or.inl (separate.contained other position held).1,
      (separate.contained other position held).2⟩

/-- The item was in a cell and is put in another one. -/
theorem restores (separate : Separate
      (fun other => (present other ∧ other ≠ item) ∨ other = item) queue
      content) (isPresent : present item) :
    Separate present queue content := by
  refine separate.mono ?_
  rintro other (kept | rfl)
  · exact kept.1
  · exact isPresent

end Separate

end Foundation
