import Mathlib.Data.Finset.Card
import Mathlib.Data.Finset.Max
import Mathlib.Data.Finset.Union
import Mathlib.Data.Option.Basic
import Mathlib.Order.Interval.Finset.Nat

/-!
# Keys that make room for each other

A bounded set of ordered keys, in which a missing key is added when it is asked for, and the
smallest key makes room for it. A key stays as long as there are smaller ones to go first, so it
depends on the keys from it on whether it does.

## Main definitions

* `touch`: a key is asked for
* `above`: the keys from a key on
* `demanded`: those that are there or are asked for in a stretch of a sequence

## Main results

* `card_touch_le`: the bound
* `mem_touch_iff`, `stays_iff`: when a key stays, in a step and in a stretch
-/

namespace Foundation

variable {K : Type*} [LinearOrder K]

/-- All keys but the smallest. -/
def eraseBegin (keys : Finset K) : Finset K := keys.filter fun k => ∃ j ∈ keys, j < k

/-- A key is asked for, and added if it is missing. -/
def touch (bound : ℕ) (keys : Finset K) (k : K) : Finset K :=
  if k ∈ keys then keys else insert k (if keys.card = bound then eraseBegin keys else keys)

/-- The keys from a key on. -/
def above (k : K) (keys : Finset K) : Finset K := keys.filter (k ≤ ·)

section Step

variable {bound : ℕ} {keys : Finset K} {t u : K}

theorem mem_eraseBegin : t ∈ eraseBegin keys ↔ t ∈ keys ∧ ∃ j ∈ keys, j < t := by
  simp [eraseBegin]

theorem mem_above : u ∈ above t keys ↔ u ∈ keys ∧ t ≤ u := by
  simp [above]

theorem above_subset : above t keys ⊆ keys := Finset.filter_subset _ _

theorem card_eraseBegin_lt (h : keys.Nonempty) : (eraseBegin keys).card < keys.card := by
  apply Finset.card_lt_card
  refine Finset.filter_ssubset.mpr ⟨keys.min' h, keys.min'_mem h, ?_⟩
  rintro ⟨j, hj, hlt⟩
  exact absurd (keys.min'_le j hj) (not_le.mpr hlt)

theorem mem_touch_self : t ∈ touch bound keys t := by
  unfold touch
  split
  · assumption
  · exact Finset.mem_insert_self ..

theorem touch_of_mem (h : u ∈ keys) : touch bound keys u = keys := if_pos h

/-- Asking for a key keeps the bound. -/
theorem card_touch_le (hbound : 0 < bound) (h : keys.card ≤ bound) (k : K) :
    (touch bound keys k).card ≤ bound := by
  unfold touch
  split
  · exact h
  · rename_i hnew
    refine (Finset.card_insert_le ..).trans ?_
    split
    · rename_i hfull
      have hnonempty : keys.Nonempty := Finset.card_pos.mp (hfull ▸ hbound)
      exact (card_eraseBegin_lt hnonempty).trans_le h
    · omega

/-- A key stays unless it is the smallest of a full set and another one is added. -/
theorem mem_touch_iff (ht : t ∈ keys) (h : keys.card ≤ bound) :
    t ∈ touch bound keys u ↔ (bound ≤ (above t keys).card → u ∈ above t keys) := by
  have hall : bound ≤ (above t keys).card → above t keys = keys := fun hcard =>
    Finset.eq_of_subset_of_card_le above_subset (h.trans hcard)
  by_cases hu : u ∈ keys
  · rw [touch_of_mem hu]
    refine iff_of_true ht fun hcard => ?_
    rw [hall hcard]
    exact hu
  · have hnot : u ∉ above t keys := fun hmem => hu (above_subset hmem)
    have hne : t ≠ u := fun he => hu (he ▸ ht)
    rw [touch, if_neg hu, Finset.mem_insert, or_iff_right hne]
    simp only [hnot, imp_false, not_le]
    split
    · rename_i hfull
      rw [mem_eraseBegin]
      constructor
      · rintro ⟨-, j, hj, hlt⟩
        rw [← hfull]
        refine Finset.card_lt_card (Finset.filter_ssubset.mpr ⟨j, hj, not_le.mpr hlt⟩)
      · intro hcard
        by_contra hsmallest
        -- every key is from `t` on
        have hsame : above t keys = keys := by
          refine Finset.filter_true_of_mem fun j hj => ?_
          by_contra hlt
          exact hsmallest ⟨ht, j, hj, not_le.mp hlt⟩
        rw [hsame] at hcard
        omega
    · rename_i hroom
      refine iff_of_true ht ?_
      have hle : (above t keys).card ≤ keys.card := Finset.card_le_card above_subset
      omega

/-- While a key stays, the keys from it on only grow. -/
theorem above_touch (hstay : t ∈ touch bound keys u) (ht : t ∈ keys) :
    above t (touch bound keys u) = above t keys ∪ ({u} : Finset K).filter (t ≤ ·) := by
  by_cases hu : u ∈ keys
  · rw [touch_of_mem hu, eq_comm, Finset.union_eq_left]
    intro k hk
    obtain ⟨hk, hle⟩ := Finset.mem_filter.mp hk
    obtain rfl := Finset.mem_singleton.mp hk
    exact mem_above.mpr ⟨hu, hle⟩
  · have hne : t ≠ u := fun he => hu (he ▸ ht)
    rw [touch, if_neg hu] at hstay ⊢
    rw [Finset.mem_insert, or_iff_right hne] at hstay
    ext k
    simp only [mem_above, Finset.mem_union, Finset.mem_insert, Finset.mem_filter,
      Finset.mem_singleton]
    split at hstay
    · rename_i hfull
      rw [if_pos hfull, mem_eraseBegin]
      -- what makes room is smaller than `t`
      obtain ⟨-, j, hj, hlt⟩ := mem_eraseBegin.mp hstay
      constructor
      · rintro ⟨rfl | ⟨hk, -⟩, hle⟩
        · exact .inr ⟨rfl, hle⟩
        · exact .inl ⟨hk, hle⟩
      · rintro (⟨hk, hle⟩ | ⟨rfl, hle⟩)
        · exact ⟨.inr ⟨hk, j, hj, hlt.trans_le hle⟩, hle⟩
        · exact ⟨.inl rfl, hle⟩
    · rename_i hroom
      rw [if_neg hroom]
      tauto

end Step

section Sequence

variable {bound : ℕ} {keys : ℕ → Finset K} {requests : ℕ → Option K} {t : K} {i : ℕ}

/-- The keys from `t` on that are there at the start, or are asked for from then until a step. -/
def demanded (t : K) (start : Finset K) (requests : ℕ → Option K) (i n : ℕ) : Finset K :=
  above t start ∪ (Finset.Ico i n).biUnion fun m => (requests m).toFinset.filter (t ≤ ·)

theorem demanded_self (start : Finset K) : demanded t start requests i i = above t start := by
  simp [demanded]

theorem demanded_succ (start : Finset K) {n : ℕ} (h : i ≤ n) :
    demanded t start requests i (n + 1)
      = demanded t start requests i n ∪ (requests n).toFinset.filter (t ≤ ·) := by
  unfold demanded
  rw [Nat.Ico_succ_right_eq_insert_Ico h, Finset.biUnion_insert, Finset.union_comm _ (Finset.biUnion _ _),
    Finset.union_assoc]

/-- Each step asks for a key or leaves the keys as they are. -/
def Touched (bound : ℕ) (keys : ℕ → Finset K) (requests : ℕ → Option K) : Prop :=
  ∀ n, keys (n + 1) = (requests n).elim (keys n) (touch bound (keys n))

theorem Touched.card_le (h : Touched bound keys requests) (hbound : 0 < bound)
    (h0 : (keys 0).card ≤ bound) (n : ℕ) : (keys n).card ≤ bound := by
  induction n with
  | zero => exact h0
  | succ n ih =>
    rw [h n]
    cases requests n with
    | none => exact ih
    | some u => exact card_touch_le hbound ih u

/-- While a key stays, those from it on are the ones there were and the ones asked for. -/
theorem Touched.above_eq (h : Touched bound keys requests) {n : ℕ} (hn : i ≤ n)
    (hstay : ∀ m, i ≤ m → m ≤ n → t ∈ keys m) :
    above t (keys n) = demanded t (keys i) requests i n := by
  induction n, hn using Nat.le_induction with
  | base => rw [demanded_self]
  | succ n hn ih =>
    have ht : t ∈ keys n := hstay n hn (Nat.le_succ n)
    have hnext : t ∈ keys (n + 1) := hstay (n + 1) (Nat.le_succ_of_le hn) (Nat.le_refl _)
    rw [demanded_succ _ hn, ← ih fun m hm hle => hstay m hm (Nat.le_succ_of_le hle)]
    rw [h n] at hnext ⊢
    cases hrequest : requests n with
    | none => simp
    | some u =>
      rw [hrequest] at hnext
      exact above_touch hnext ht

/-- **A key stays as long as nothing is added while those from it on fill the set.** -/
theorem Touched.stays_iff (h : Touched bound keys requests) (hcard : ∀ n, (keys n).card ≤ bound)
    (ht : t ∈ keys i) {j : ℕ} (hij : i ≤ j) :
    (∀ n, i ≤ n → n ≤ j → t ∈ keys n) ↔
      ∀ n, i ≤ n → n < j → ∀ u, requests n = some u →
        bound ≤ (demanded t (keys i) requests i n).card → u ∈ demanded t (keys i) requests i n := by
  induction j, hij using Nat.le_induction with
  | base =>
    refine iff_of_true (fun n hin hni => ?_) fun n hin hni => absurd hin (not_le.mpr hni)
    obtain rfl := Nat.le_antisymm hin hni
    exact ht
  | succ j hij ih =>
    constructor
    · intro hstay n hin hnj u hrequest
      have hsofar : ∀ m, i ≤ m → m ≤ n → t ∈ keys m :=
        fun m hm hle => hstay m hm (by omega)
      have hnext : t ∈ keys (n + 1) := hstay (n + 1) (by omega) hnj
      rw [h n, hrequest] at hnext
      rw [← h.above_eq hin hsofar]
      exact (mem_touch_iff (hsofar n hin (Nat.le_refl n)) (hcard n)).mp hnext
    · intro hroom
      have hstay := ih.mpr fun n hin hnj => hroom n hin (by omega)
      intro n hin hnj
      rcases Nat.lt_or_ge j n with hlt | hge
      · obtain rfl : n = j + 1 := by omega
        have hj : t ∈ keys j := hstay j hij (Nat.le_refl j)
        rw [h j]
        cases hrequest : requests j with
        | none => exact hj
        | some u =>
          refine (mem_touch_iff hj (hcard j)).mpr ?_
          rw [h.above_eq hij hstay]
          exact hroom j hij (Nat.lt_succ_self j) u hrequest
      · exact hstay n hin hge

end Sequence

end Foundation
