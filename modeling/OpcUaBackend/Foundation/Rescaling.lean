import Mathlib.Algebra.Order.Ring.Int

/-!
# Counts in another unit

A count of intervals since an origin becomes one of shorter intervals since another origin by a
difference and a product. Both are those of signed numbers of 64 bits, and without a value where
the exact result is none of these. As the difference is less than the product, it is the product
alone that has to be looked at; and where there is one, the order of the counts is kept.

## Main definitions

* `checkedSub`, `checkedMul`: the operations
* `rescale`: the count in the other unit

## Main results

* `rescale_eq_some_iff`: the exact count
* `exists_rescale_iff`: when there is one
* `rescale_lt_iff`, `rescale_inj`: the counts are ordered as before
-/

namespace Foundation

/-! ## Checked operations -/

/-- The difference, if it is a number of 64 bits. -/
def checkedSub (x y : Int64) : Option Int64 :=
  if x.toBitVec.ssubOverflow y.toBitVec then none else some (x - y)

/-- The product, if it is a number of 64 bits. -/
def checkedMul (x y : Int64) : Option Int64 :=
  if x.toBitVec.smulOverflow y.toBitVec then none else some (x * y)

section Operations

variable {x y z : Int64}

theorem ssubOverflow_iff : x.toBitVec.ssubOverflow y.toBitVec = true ↔
    ¬ (-2 ^ 63 ≤ x.toInt - y.toInt ∧ x.toInt - y.toInt < 2 ^ 63) := by
  rw [BitVec.ssubOverflow, Bool.or_eq_true, decide_eq_true_eq, decide_eq_true_eq]
  change x.toInt - y.toInt ≥ 2 ^ 63 ∨ x.toInt - y.toInt < -2 ^ 63 ↔ _
  omega

theorem smulOverflow_iff : x.toBitVec.smulOverflow y.toBitVec = true ↔
    ¬ (-2 ^ 63 ≤ x.toInt * y.toInt ∧ x.toInt * y.toInt < 2 ^ 63) := by
  rw [BitVec.smulOverflow, Bool.or_eq_true, decide_eq_true_eq, decide_eq_true_eq]
  change x.toInt * y.toInt ≥ 2 ^ 63 ∨ x.toInt * y.toInt < -2 ^ 63 ↔ _
  omega

/-- The difference that there is, is exact. -/
theorem checkedSub_eq_some_iff : checkedSub x y = some z ↔ z.toInt = x.toInt - y.toInt := by
  have hlow := z.le_toInt
  have hhigh := z.toInt_lt
  rw [checkedSub]
  split
  · rename_i hover
    have hout := ssubOverflow_iff.mp hover
    refine iff_of_false (by simp) fun hz => hout ?_
    omega
  · rename_i hover
    have hexact : (x - y).toInt = x.toInt - y.toInt :=
      BitVec.toInt_sub_of_not_ssubOverflow hover
    rw [Option.some_inj, ← Int64.toInt_inj, hexact]
    exact eq_comm

/-- The product that there is, is exact. -/
theorem checkedMul_eq_some_iff : checkedMul x y = some z ↔ z.toInt = x.toInt * y.toInt := by
  have hlow := z.le_toInt
  have hhigh := z.toInt_lt
  rw [checkedMul]
  split
  · rename_i hover
    have hout := smulOverflow_iff.mp hover
    refine iff_of_false (by simp) fun hz => hout ?_
    omega
  · rename_i hover
    have hexact : (x * y).toInt = x.toInt * y.toInt :=
      BitVec.toInt_mul_of_not_smulOverflow hover
    rw [Option.some_inj, ← Int64.toInt_inj, hexact]
    exact eq_comm

end Operations

/-! ## Counts -/

/-- The count from the origin on, in intervals of which `factor` are one of before. -/
def rescale (origin factor x : Int64) : Option Int64 :=
  (checkedSub x origin).bind fun d => checkedMul d factor

section Counts

variable {origin factor x y z w : Int64}

/-- A number has 64 bits if a multiple of it has. -/
theorem between_of_mul {d f : Int} (hf : 0 < f) (hlow : -2 ^ 63 ≤ d * f) (hhigh : d * f < 2 ^ 63) :
    -2 ^ 63 ≤ d ∧ d < 2 ^ 63 := by
  rcases le_or_gt 0 d with hd | hd
  · have hle : d * 1 ≤ d * f := mul_le_mul_of_nonneg_left hf hd
    omega
  · have hle : d * f ≤ d * 1 := mul_le_mul_of_nonpos_left hf hd.le
    omega

/-- **The count that there is, is exact.** -/
theorem rescale_eq_some_iff (hfactor : 0 < factor.toInt) :
    rescale origin factor x = some z ↔ z.toInt = (x.toInt - origin.toInt) * factor.toInt := by
  rw [rescale, Option.bind_eq_some_iff]
  constructor
  · rintro ⟨d, hd, hz⟩
    rw [checkedMul_eq_some_iff.mp hz, checkedSub_eq_some_iff.mp hd]
  · intro hz
    -- the difference is less than the product, so that it is there as well
    have hdiff := between_of_mul hfactor (hz ▸ z.le_toInt) (hz ▸ z.toInt_lt)
    have hexact := Int64.toInt_ofInt_of_le hdiff.1 hdiff.2
    refine ⟨.ofInt (x.toInt - origin.toInt), checkedSub_eq_some_iff.mpr hexact, ?_⟩
    rw [checkedMul_eq_some_iff, hexact, hz]

/-- **There is a count if the exact one has 64 bits.** -/
theorem exists_rescale_iff (hfactor : 0 < factor.toInt) :
    (∃ z, rescale origin factor x = some z) ↔
      -2 ^ 63 ≤ (x.toInt - origin.toInt) * factor.toInt ∧
        (x.toInt - origin.toInt) * factor.toInt < 2 ^ 63 := by
  constructor
  · rintro ⟨z, hz⟩
    rw [← (rescale_eq_some_iff hfactor).mp hz]
    exact ⟨z.le_toInt, z.toInt_lt⟩
  · rintro ⟨hlow, hhigh⟩
    exact ⟨_, (rescale_eq_some_iff hfactor).mpr (Int64.toInt_ofInt_of_le hlow hhigh)⟩

/-- **Counts are ordered as before.** -/
theorem rescale_lt_iff (hfactor : 0 < factor.toInt) (hz : rescale origin factor x = some z)
    (hw : rescale origin factor y = some w) : z < w ↔ x < y := by
  rw [Int64.lt_iff_toInt_lt, Int64.lt_iff_toInt_lt, (rescale_eq_some_iff hfactor).mp hz,
    (rescale_eq_some_iff hfactor).mp hw, mul_lt_mul_iff_left₀ hfactor, sub_lt_sub_iff_right]

/-- Different counts stay different. -/
theorem rescale_inj (hfactor : 0 < factor.toInt) (hz : rescale origin factor x = some z)
    (hw : rescale origin factor y = some w) : z = w ↔ x = y := by
  rw [← Int64.toInt_inj, ← Int64.toInt_inj, (rescale_eq_some_iff hfactor).mp hz,
    (rescale_eq_some_iff hfactor).mp hw, mul_left_inj' hfactor.ne', sub_left_inj]

end Counts

end Foundation
