import Mathlib.Tactic.Common

/-!
# Rounding up with overflow

A size is rounded up to a multiple by adding the multiple less one and dividing.
Sizes are counted modulo a limit, so the sum can wrap; the result is then zero.
-/

namespace Foundation

/-- `((size + multiple - 1) / multiple) * multiple`, where the sum is taken
modulo `limit`. -/
def roundUpModulo (limit size multiple : Nat) : Nat :=
  (size + multiple - 1) % limit / multiple * multiple

section RoundUp

variable {limit size multiple bound : Nat}

theorem dvd_roundUpModulo : multiple ∣ roundUpModulo limit size multiple :=
  Nat.dvd_mul_left _ _

/-- A sum that wraps is less than one multiple. -/
theorem roundUpModulo_eq_zero (small : size < limit)
    (wraps : limit < size + multiple) :
    roundUpModulo limit size multiple = 0 := by
  have remainder : (size + multiple - 1) % limit / multiple = 0 := by
    apply Nat.div_eq_of_lt
    rw [Nat.mod_eq_sub_mod (by omega)]
    exact Nat.lt_of_le_of_lt (Nat.mod_le _ _) (by omega)
  rw [roundUpModulo, remainder, Nat.zero_mul]

theorem roundUpModulo_eq (fits : size + multiple ≤ limit)
    (positive : 0 < multiple) :
    roundUpModulo limit size multiple =
      (size + multiple - 1) / multiple * multiple := by
  rw [roundUpModulo, Nat.mod_eq_of_lt (by omega)]

theorem le_roundUpModulo (fits : size + multiple ≤ limit)
    (positive : 0 < multiple) :
    size ≤ roundUpModulo limit size multiple := by
  rw [roundUpModulo_eq fits positive]
  have parts := Nat.div_add_mod (size + multiple - 1) multiple
  have small := Nat.mod_lt (size + multiple - 1) positive
  rw [Nat.mul_comm] at parts
  omega

theorem roundUpModulo_lt (fits : size + multiple ≤ limit)
    (positive : 0 < multiple) :
    roundUpModulo limit size multiple < size + multiple := by
  rw [roundUpModulo_eq fits positive]
  have quotient := Nat.div_mul_le_self (size + multiple - 1) multiple
  omega

/-- A multiple above the size is above the size rounded up. -/
theorem roundUpModulo_le (fits : size + multiple ≤ limit)
    (positive : 0 < multiple) (above : size ≤ bound)
    (whole : multiple ∣ bound) :
    roundUpModulo limit size multiple ≤ bound := by
  have less := roundUpModulo_lt fits positive
  obtain ⟨count, rfl⟩ := whole
  obtain ⟨rounded, equal⟩ :
      multiple ∣ roundUpModulo limit size multiple :=
    dvd_roundUpModulo
  rw [equal] at less ⊢
  apply Nat.mul_le_mul_left
  by_contra more
  have further : multiple * (count + 1) ≤ multiple * rounded :=
    Nat.mul_le_mul_left _ (by omega)
  rw [Nat.mul_add, Nat.mul_one] at further
  omega

theorem roundUpModulo_of_dvd (fits : size + multiple ≤ limit)
    (positive : 0 < multiple) (whole : multiple ∣ size) :
    roundUpModulo limit size multiple = size :=
  Nat.le_antisymm (roundUpModulo_le fits positive (Nat.le_refl _) whole)
    (le_roundUpModulo fits positive)

end RoundUp

end Foundation
