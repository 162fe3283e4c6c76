/-!
Finite binary floating point numbers of 64 bits, in exact arithmetic. A magnitude is counted in
units of the least positive one, so it is a natural number and every operation is a quotient of
naturals rounded to nearest.
-/

namespace PhraseSql.Number

def roundDiv (n d : Nat) : Nat :=
  if 2 * (n % d) < d then n / d
  else if d < 2 * (n % d) then n / d + 1
  else n / d + (n / d) % 2

theorem roundDiv_le (n d : Nat) : roundDiv n d ≤ n / d + 1 := by
  unfold roundDiv
  split
  · omega
  · split <;> omega

/-- Neighbouring magnitudes near `units` lie this far apart. -/
def spacing (units : Nat) : Nat :=
  1 <<< (units.log2 - 52)

def nearest (n d : Nat) : Nat :=
  roundDiv n (d * spacing (n / d)) * spacing (n / d)

/-- At most 53 binary digits, above the unit place. -/
def OnGrid (units : Nat) : Prop :=
  ∃ significand place : Nat, significand ≤ 1 <<< 53 ∧ units = significand <<< place

theorem onGrid_zero : OnGrid 0 :=
  ⟨0, 0, Nat.zero_le _, rfl⟩

theorem mul_spacing (n units : Nat) : n * spacing units = n <<< (units.log2 - 52) := by
  rw [spacing, Nat.one_shiftLeft, Nat.shiftLeft_eq]

theorem div_spacing_lt (units : Nat) : units / spacing units < 1 <<< 53 := by
  refine Nat.div_lt_of_lt_mul (Nat.lt_of_lt_of_le Nat.lt_log2_self ?_)
  rw [spacing, Nat.one_shiftLeft, Nat.one_shiftLeft, ← Nat.pow_add]
  exact Nat.pow_le_pow_right (Nat.succ_pos 1) (by omega)

theorem onGrid_nearest (n d : Nat) : OnGrid (nearest n d) := by
  refine ⟨_, _, ?_, mul_spacing _ _⟩
  refine Nat.le_trans (roundDiv_le _ _) (Nat.succ_le_of_lt ?_)
  rw [← Nat.div_div_eq_div_mul]
  exact div_spacing_lt _

def one : Nat :=
  1 <<< 1074

def overflow : Nat :=
  1 <<< 2098

def times (x y : Nat) : Nat :=
  nearest (x * y) one

def dividedBy (x y : Nat) : Nat :=
  nearest (x * one) y

def ofWhole (n : Nat) : Nat :=
  nearest (n * one) 1

def largestPower : Nat := 308

/-- Division by a power of ten, the largest ones first. -/
def shrink (x power : Nat) : Nat :=
  if power ≤ largestPower then dividedBy x (ofWhole (Nat.pow 10 power))
  else if x = 0 then 0
  else shrink (dividedBy x (ofWhole (Nat.pow 10 largestPower))) (power - largestPower)
termination_by power
decreasing_by simp only [largestPower] at *; omega

def grow? (x power : Nat) : Option Nat :=
  if power ≤ largestPower then some (times x (ofWhole (Nat.pow 10 power)))
  else if x = 0 then some 0
  else none

def scaled? (significand : Nat) : Int → Option Nat
  | .ofNat power => grow? (ofWhole significand) power
  | .negSucc power => some (shrink (ofWhole significand) (power + 1))

theorem onGrid_shrink (x power : Nat) : OnGrid (shrink x power) := by
  fun_induction shrink x power with
  | case1 => exact onGrid_nearest _ _
  | case2 => exact onGrid_zero
  | case3 _ _ _ _ ih => exact ih

theorem onGrid_of_scaled? {significand x : Nat} {exponent : Int}
    (h : scaled? significand exponent = some x) : OnGrid x := by
  cases exponent with
  | ofNat power =>
    simp only [scaled?, grow?] at h
    split at h
    · cases h
      exact onGrid_nearest _ _
    · split at h
      · cases h
        exact onGrid_zero
      · cases h
  | negSucc power =>
    cases h
    exact onGrid_shrink _ _

end PhraseSql.Number

namespace PhraseSql

open Number

structure Binary64 where
  negative : Bool
  units : Nat
  lt_overflow : units < overflow
  onGrid : OnGrid units

namespace Binary64

def sameValue (x y : Binary64) : Bool :=
  x.units == y.units && (x.negative == y.negative || x.units == 0)

def half : Binary64 where
  negative := false
  units := 1 <<< 1073
  lt_overflow := by decide +kernel
  onGrid := ⟨1, 1073, by decide +kernel, rfl⟩

def ofScaled? (negative : Bool) (significand : Nat) (exponent : Int) : Option Binary64 :=
  match h : scaled? significand exponent with
  | none => none
  | some units =>
    if hu : units < overflow then some ⟨negative, units, hu, onGrid_of_scaled? h⟩ else none

end Binary64

end PhraseSql
