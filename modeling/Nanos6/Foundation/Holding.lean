import Mathlib.Tactic.Common

/-!
# Who has an item

Several parties of a system may have an item, each in its own way.  An item is held
by one of them if it is the only one that has it.
-/

namespace Foundation

universe u v

variable {Holder : Type u} {Item : Type v}

/-- The given holder has the item, and nobody else. -/
def HeldBy (holds : Holder → Item → Prop) (item : Item)
    (holder : Option Holder) : Prop :=
  ∀ other, holds other item ↔ holder = some other

namespace HeldBy

variable {holds next : Holder → Item → Prop} {item : Item}
  {holder : Option Holder} {first second : Holder}

theorem eq_some (held : HeldBy holds item holder)
    (has : holds first item) : holder = some first :=
  (held first).mp has

theorem unique (held : HeldBy holds item holder)
    (firstHas : holds first item) (secondHas : holds second item) :
    first = second := by
  have isFirst := held.eq_some firstHas
  have isSecond := held.eq_some secondHas
  rw [isFirst] at isSecond
  exact Option.some.inj isSecond

theorem not_holds (held : HeldBy holds item (some first))
    (different : second ≠ first) : ¬ holds second item := by
  intro has
  have isSecond := held.eq_some has
  exact different (Option.some.inj isSecond).symm

/-- What does not change who has the item keeps its holder. -/
theorem congr (held : HeldBy holds item holder)
    (same : ∀ other, next other item ↔ holds other item) :
    HeldBy next item holder :=
  fun other => (same other).trans (held other)

end HeldBy

end Foundation
