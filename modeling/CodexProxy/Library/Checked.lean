import Mathlib.Algebra.Ring.Int.Defs

/-! Signed 64-bit arithmetic that fails when the exact result does not fit. Where it does
not fail it agrees with the arithmetic that wraps around. -/
namespace Checked

/-- The range of a signed 64-bit integer. -/
def Fits (n : Int) : Prop := -2 ^ 63 ≤ n ∧ n < 2 ^ 63

instance (n : Int) : Decidable (Fits n) := inferInstanceAs (Decidable (_ ∧ _))

def ofInt (n : Int) : Option Int64 := if Fits n then some (Int64.ofInt n) else none

def add (a b : Int64) : Option Int64 := ofInt (a.toInt + b.toInt)

def sub (a b : Int64) : Option Int64 := ofInt (a.toInt - b.toInt)

theorem fits_toInt (a : Int64) : Fits a.toInt := ⟨a.le_toInt, a.toInt_lt⟩

/-- A result is the exact one. -/
theorem ofInt_eq_some {n : Int} {a : Int64} : ofInt n = some a ↔ a.toInt = n := by
  constructor
  · intro found
    obtain ⟨fits, same⟩ := Option.ite_none_right_eq_some.mp found
    rw [← Option.some.inj same]
    exact Int64.toInt_ofInt_of_le fits.1 fits.2
  · rintro rfl
    rw [ofInt, if_pos (fits_toInt a), Int64.ofInt_toInt]

theorem ofInt_isSome {n : Int} : (ofInt n).isSome ↔ Fits n := by
  rw [ofInt]
  split
  · rename_i fits
    exact iff_of_true rfl fits
  · rename_i overflows
    exact iff_of_false Bool.false_ne_true overflows

/-- Without overflow a sum does not wrap. -/
theorem add_of_fits {a b : Int64} (fits : Fits (a.toInt + b.toInt)) :
    (a + b).toInt = a.toInt + b.toInt := by
  rw [← Int64.ofInt_toInt a, ← Int64.ofInt_toInt b, ← Int64.ofInt_add, Int64.ofInt_toInt,
    Int64.ofInt_toInt]
  exact Int64.toInt_ofInt_of_le fits.1 fits.2

/-- Without overflow a difference does not wrap. -/
theorem sub_of_fits {a b : Int64} (fits : Fits (a.toInt - b.toInt)) :
    (a - b).toInt = a.toInt - b.toInt := by
  rw [← Int64.ofInt_toInt a, ← Int64.ofInt_toInt b, ← Int64.ofInt_sub, Int64.ofInt_toInt,
    Int64.ofInt_toInt]
  exact Int64.toInt_ofInt_of_le fits.1 fits.2

end Checked
