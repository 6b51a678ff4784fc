import Mathlib.Algebra.Order.Round
import Mathlib.Data.Rat.Floor
import Mathlib.Tactic.Linarith
import Mathlib.Tactic.Positivity

/-!
# Saturation

Numbers are exact. A number is brought into a type of numbers by rounding it, if the type has only
integers, and by taking the bound that it is beyond. Ties are rounded away from zero.

## Main definitions

* `roundAway`: rounding to the nearest integer, ties away from zero
* `NumericLimits`: the bounds of a type of numbers
* `NumericLimits.clamp`: the number in the range that is nearest

## Main results

* `roundAway_isNearestAway`: what rounding is
* `roundAway_le_iff`, `le_roundAway_iff`: which numbers are rounded into a range
* `roundAway_mono`, `NumericLimits.clamp_mono`: both keep the order
-/

namespace Foundation

section Rounding

variable {α : Type*} [Field α] [LinearOrder α] [IsStrictOrderedRing α] [FloorRing α]

/-- `std::round`. -/
def roundAway (x : α) : ℤ := if 0 ≤ x then round x else -round (-x)

/-- The nearest integer, and of two the one that is farther from zero. -/
structure IsNearestAway (x : α) (n : ℤ) : Prop where
  near : |x - n| ≤ 1 / 2
  away : |x - n| = 1 / 2 → |x| < |(n : α)|

variable {x y : α} {n : ℤ}

omit [IsStrictOrderedRing α] in
theorem roundAway_of_nonneg (h : 0 ≤ x) : roundAway x = round x := if_pos h

omit [IsStrictOrderedRing α] in
theorem roundAway_of_neg (h : x < 0) : roundAway x = -round (-x) := if_neg (not_le.mpr h)

theorem roundAway_neg (x : α) : roundAway (-x) = -roundAway x := by
  rcases lt_trichotomy x 0 with h | rfl | h
  · rw [roundAway_of_nonneg (by linarith), roundAway_of_neg h, neg_neg]
  · simp [roundAway]
  · rw [roundAway_of_neg (by linarith), roundAway_of_nonneg h.le, neg_neg]

theorem roundAway_nonneg (h : 0 ≤ x) : 0 ≤ roundAway x := by
  rw [roundAway_of_nonneg h, round_eq]
  exact Int.floor_nonneg.mpr (by linarith)

theorem roundAway_nonpos (h : x ≤ 0) : roundAway x ≤ 0 := by
  have hneg := roundAway_nonneg (neg_nonneg.mpr h)
  rw [roundAway_neg] at hneg
  omega

theorem roundAway_intCast (n : ℤ) : roundAway (n : α) = n := by
  rcases le_or_gt 0 (n : α) with h | h
  · rw [roundAway_of_nonneg h, round_intCast]
  · rw [roundAway_of_neg h, ← Int.cast_neg, round_intCast, neg_neg]

/-- The half above a bound is rounded out of the range. -/
theorem roundAway_le_iff (hn : 0 ≤ n) : roundAway x ≤ n ↔ x < n + 1 / 2 := by
  rcases le_or_gt 0 x with h | h
  · rw [roundAway_of_nonneg h, round_eq, ← Int.lt_add_one_iff, Int.floor_lt]
    push_cast
    constructor <;> intro hlt <;> linarith
  · have hcast : (0 : α) ≤ n := Int.cast_nonneg hn
    exact iff_of_true ((roundAway_nonpos h.le).trans hn) (by linarith)

/-- So is the half below a bound. -/
theorem le_roundAway_iff (hn : n ≤ 0) : n ≤ roundAway x ↔ n - 1 / 2 < x := by
  have hflip := roundAway_le_iff (x := -x) (n := -n) (by omega)
  rw [roundAway_neg, neg_le_neg_iff] at hflip
  rw [hflip]
  push_cast
  constructor <;> intro hlt <;> linarith

theorem roundAway_mono (hxy : x ≤ y) : roundAway x ≤ roundAway y := by
  have hround : ∀ a b : α, a ≤ b → round a ≤ round b := by
    intro a b hab
    rw [round_eq, round_eq]
    exact Int.floor_le_floor (by linarith)
  rcases le_or_gt 0 x with hx | hx
  · rw [roundAway_of_nonneg hx, roundAway_of_nonneg (hx.trans hxy)]
    exact hround x y hxy
  rcases le_or_gt 0 y with hy | hy
  · exact (roundAway_nonpos hx.le).trans (roundAway_nonneg hy)
  · rw [roundAway_of_neg hx, roundAway_of_neg hy]
    exact neg_le_neg (hround (-y) (-x) (by linarith))

theorem roundAway_isNearestAway (x : α) : IsNearestAway x (roundAway x) := by
  -- a number that is not negative; the others are mirrored
  have hpos : ∀ x : α, 0 ≤ x → IsNearestAway x (round x) := by
    intro x hx
    refine ⟨abs_sub_round x, fun htie => ?_⟩
    have hle := round_le_add_half x
    have hlt := sub_half_lt_round x
    have hround : 0 ≤ round x := by simpa [roundAway_of_nonneg hx] using roundAway_nonneg hx
    have hcast : (0 : α) ≤ round x := Int.cast_nonneg hround
    rw [abs_of_nonneg hx, abs_of_nonneg hcast]
    rcases abs_cases (x - round x) with ⟨habs, -⟩ | ⟨habs, -⟩ <;> linarith
  rcases le_or_gt 0 x with h | h
  · rw [roundAway_of_nonneg h]
    exact hpos x h
  · rw [roundAway_of_neg h]
    obtain ⟨hnear, haway⟩ := hpos (-x) (by linarith)
    have hflip : |x - ((-round (-x) : ℤ) : α)| = |-x - (round (-x) : α)| := by
      rw [← abs_neg]
      push_cast
      congr 1
      ring
    refine ⟨hflip ▸ hnear, fun htie => ?_⟩
    have hlt := haway (hflip ▸ htie)
    rw [abs_neg] at hlt
    push_cast
    rwa [abs_neg]

end Rounding

/-! ## Types of numbers -/

/-- `std::numeric_limits` of a type. What `min` is depends on the type. -/
structure NumericLimits where
  is_integer : Bool
  lowest : ℚ
  max : ℚ
  min : ℚ
  lowest_nonpos : lowest ≤ 0
  max_nonneg : 0 ≤ max
  lowest_integer : is_integer = true → ∃ n : ℤ, lowest = n
  max_integer : is_integer = true → ∃ n : ℤ, max = n
  min_eq : is_integer = true → min = lowest
  min_pos : is_integer = false → 0 < min

namespace NumericLimits

variable (t : NumericLimits)

/-- An integral type. -/
def integer (signed : Bool) (bits : ℕ) : NumericLimits where
  is_integer := true
  lowest := if signed then -2 ^ (bits - 1) else 0
  max := if signed then 2 ^ (bits - 1) - 1 else 2 ^ bits - 1
  min := if signed then -2 ^ (bits - 1) else 0
  lowest_nonpos := by
    split
    · exact neg_nonpos.mpr (by positivity)
    · exact le_refl _
  max_nonneg := by
    split <;> exact sub_nonneg.mpr (one_le_pow₀ (by norm_num))
  lowest_integer _ := by
    split
    · exact ⟨-2 ^ (bits - 1), by push_cast; rfl⟩
    · exact ⟨0, by simp⟩
  max_integer _ := by
    split
    · exact ⟨2 ^ (bits - 1) - 1, by push_cast; rfl⟩
    · exact ⟨2 ^ bits - 1, by push_cast; rfl⟩
  min_eq _ := rfl
  min_pos h := by cases h

/-- A floating type; its `min` is the smallest positive number that is not denormalized. -/
def floating (digits max_exponent : ℕ) : NumericLimits where
  is_integer := false
  lowest := -(2 ^ max_exponent - 2 ^ (max_exponent - digits))
  max := 2 ^ max_exponent - 2 ^ (max_exponent - digits)
  min := 1 / 2 ^ (max_exponent - 2)
  lowest_nonpos := by
    have h : (2 : ℚ) ^ (max_exponent - digits) ≤ 2 ^ max_exponent :=
      pow_le_pow_right₀ (by norm_num) (Nat.sub_le ..)
    linarith
  max_nonneg := sub_nonneg.mpr (pow_le_pow_right₀ (by norm_num) (Nat.sub_le ..))
  lowest_integer h := by cases h
  max_integer h := by cases h
  min_eq h := by cases h
  min_pos _ := by positivity

/-- The numbers of the type. The precision of a floating type is left aside. -/
structure Holds (x : ℚ) : Prop where
  lowest_le : t.lowest ≤ x
  le_max : x ≤ t.max
  integer : t.is_integer = true → ∃ n : ℤ, x = n

/-- The number itself if it lies in the range, and else the bound that it is beyond. -/
def clamp (x : ℚ) : ℚ := if x < t.lowest then t.lowest else if t.max < x then t.max else x

variable {t} {x y : ℚ}

theorem lowest_le_max : t.lowest ≤ t.max := t.lowest_nonpos.trans t.max_nonneg

theorem clamp_of_lt (h : x < t.lowest) : t.clamp x = t.lowest := if_pos h

theorem clamp_of_gt (h : t.max < x) : t.clamp x = t.max := by
  rw [clamp, if_neg (not_lt.mpr (lowest_le_max.trans h.le)), if_pos h]

theorem clamp_of_mem (hl : t.lowest ≤ x) (hm : x ≤ t.max) : t.clamp x = x := by
  rw [clamp, if_neg (not_lt.mpr hl), if_neg (not_lt.mpr hm)]

theorem clamp_mono : Monotone t.clamp := by
  intro x y hxy
  rcases lt_or_ge x t.lowest with hx | hx
  · rw [clamp_of_lt hx]
    rcases lt_or_ge y t.lowest with hy | hy
    · rw [clamp_of_lt hy]
    rcases lt_or_ge t.max y with hy' | hy'
    · rw [clamp_of_gt hy']
      exact lowest_le_max
    · rwa [clamp_of_mem hy hy']
  rcases lt_or_ge t.max x with hx' | hx'
  · rw [clamp_of_gt hx', clamp_of_gt (hx'.trans_le hxy)]
  · rw [clamp_of_mem hx hx']
    rcases lt_or_ge t.max y with hy | hy
    · rwa [clamp_of_gt hy]
    · rwa [clamp_of_mem (hx.trans hxy) hy]

end NumericLimits

end Foundation
