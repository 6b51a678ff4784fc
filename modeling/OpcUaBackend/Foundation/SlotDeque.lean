import Mathlib.Data.List.Basic

/-!
# Double-ended queues with slot addresses

A deque holds its elements in consecutive slots, and addresses denote slots, not elements.
Appending keeps every element in its slot. Erasing an inner element move-assigns the
elements on the shorter side of it into the adjacent slots and destroys the slot at that end:
an address kept from before then denotes another element, or a slot that is gone.

## Main definitions

* `SlotDeque`, `SlotDeque.slot`, `SlotDeque.get?`: elements in consecutive slots
* `SlotDeque.erase`, `SlotDeque.Moved`: erasure, and the elements it moves

## Main results

* `SlotDeque.slot_erase_of_not_moved`, `SlotDeque.slot_erase_of_moved`: an element keeps its
  slot under an erasure exactly when it is not moved
-/

namespace Foundation

/-- Elements in consecutive slots, the first of them in slot `base`. -/
structure SlotDeque (α : Type*) where
  base : Nat := 0
  elems : List α := []

namespace SlotDeque

variable {α : Type*}

/-- The number of elements. -/
def size (d : SlotDeque α) : Nat := d.elems.length

/-- The slot of the `i`-th element. -/
def slot (d : SlotDeque α) (i : Nat) : Nat := d.base + i

/-- The element in slot `p`, when the slot is live. -/
def get? (d : SlotDeque α) (p : Nat) : Option α :=
  if p < d.base then none else d.elems[p - d.base]?

/-- Append an element; no other element changes its slot. -/
def pushBack (d : SlotDeque α) (x : α) : SlotDeque α := { d with elems := d.elems ++ [x] }

/-- Change the `i`-th element in its slot. -/
def modify (d : SlotDeque α) (i : Nat) (f : α → α) : SlotDeque α :=
  { d with elems := d.elems.modify i f }

/-- Change every element in its slot, in dependence on the slot. -/
def mapSlots (d : SlotDeque α) (f : Nat → α → α) : SlotDeque α :=
  { d with elems := d.elems.mapIdx fun i x => f (d.slot i) x }

/-- Change every element in its slot. -/
def map (d : SlotDeque α) (f : α → α) : SlotDeque α := { d with elems := d.elems.map f }

/-- Erase the `k`-th element. With fewer elements before it than after it, those before it
move one slot up and the first slot is destroyed; otherwise those after it move one slot down
and the last slot is destroyed. -/
def erase (d : SlotDeque α) (k : Nat) : SlotDeque α :=
  { base := if k < d.size / 2 then d.base + 1 else d.base
    elems := d.elems.eraseIdx k }

/-- Erasing the `k`-th element moves the `j`-th one into another slot. -/
def Moved (d : SlotDeque α) (k j : Nat) : Prop := if k < d.size / 2 then j < k else k < j

instance (d : SlotDeque α) (k j : Nat) : Decidable (d.Moved k j) := by
  unfold Moved; infer_instance

theorem slot_inj (d : SlotDeque α) {i j : Nat} : d.slot i = d.slot j ↔ i = j := by
  simp [slot]

@[simp] theorem get?_slot (d : SlotDeque α) (i : Nat) : d.get? (d.slot i) = d.elems[i]? := by
  have hlive : ¬ d.base + i < d.base := by omega
  simp [get?, slot, hlive]

theorem get?_eq_some (d : SlotDeque α) {p : Nat} {x : α} :
    d.get? p = some x ↔ ∃ i, p = d.slot i ∧ d.elems[i]? = some x := by
  constructor
  · intro h
    unfold get? at h
    split at h
    · cases h
    · rename_i hp
      exact ⟨p - d.base, by simp only [slot]; omega, h⟩
  · rintro ⟨i, rfl, h⟩
    rwa [get?_slot]

@[simp] theorem elems_pushBack (d : SlotDeque α) (x : α) :
    (d.pushBack x).elems = d.elems ++ [x] := rfl

@[simp] theorem slot_pushBack (d : SlotDeque α) (x : α) (i : Nat) :
    (d.pushBack x).slot i = d.slot i := rfl

@[simp] theorem elems_modify (d : SlotDeque α) (i : Nat) (f : α → α) :
    (d.modify i f).elems = d.elems.modify i f := rfl

@[simp] theorem slot_modify (d : SlotDeque α) (i : Nat) (f : α → α) (j : Nat) :
    (d.modify i f).slot j = d.slot j := rfl

theorem getElem?_modify_self (d : SlotDeque α) {i : Nat} {x : α} (f : α → α)
    (h : d.elems[i]? = some x) : (d.modify i f).elems[i]? = some (f x) := by
  simp [h]

theorem getElem?_modify_of_ne (d : SlotDeque α) {i j : Nat} (f : α → α) (h : j ≠ i) :
    (d.modify i f).elems[j]? = d.elems[j]? := by
  have h' : i ≠ j := h.symm
  simp [h']

theorem map_elems_modify {β : Type*} (d : SlotDeque α) (i : Nat) {f : α → α} {g : α → β}
    (h : ∀ x, g (f x) = g x) : (d.modify i f).elems.map g = d.elems.map g := by
  refine List.ext_getElem? fun j => ?_
  rw [List.getElem?_map, List.getElem?_map]
  by_cases hj : j = i
  · cases hd : d.elems[j]? with
    | none => simp [List.getElem?_modify, hd]
    | some x => rw [hj, getElem?_modify_self d f (hj ▸ hd), Option.map_some, h, Option.map_some]
  · rw [getElem?_modify_of_ne d f hj]

/-- Two lists that agree under a map agree in it at every position. -/
theorem exists_getElem?_of_map_eq {β : Type*} {f : α → β} {l l' : List α}
    (h : l'.map f = l.map f) {i : Nat} {x' : α} (hi : l'[i]? = some x') :
    ∃ x, l[i]? = some x ∧ f x' = f x := by
  have hi' := congrArg (·[i]?) h
  simp only [List.getElem?_map, hi, Option.map_some] at hi'
  obtain ⟨x, hx, hf⟩ := Option.map_eq_some_iff.mp hi'.symm
  exact ⟨x, hx, hf.symm⟩

@[simp] theorem elems_map (d : SlotDeque α) (f : α → α) : (d.map f).elems = d.elems.map f := rfl

theorem getElem?_mapSlots (d : SlotDeque α) (f : Nat → α → α) (i : Nat) :
    (d.mapSlots f).elems[i]? = d.elems[i]?.map (f (d.slot i)) := by
  simp [mapSlots]

@[simp] theorem elems_erase (d : SlotDeque α) (k : Nat) :
    (d.erase k).elems = d.elems.eraseIdx k := rfl

/-- The position after the erasure of the `k`-th element of what was the `j`-th one. -/
def posAfter (k j : Nat) : Nat := if j < k then j else j - 1

theorem getElem?_erase_posAfter (d : SlotDeque α) {k j : Nat} (hne : j ≠ k) :
    (d.erase k).elems[posAfter k j]? = d.elems[j]? := by
  rw [elems_erase, List.getElem?_eraseIdx, posAfter]
  by_cases hjk : j < k
  · simp only [hjk, if_true]
  · have hlast : ¬ j - 1 < k := by omega
    have hback : j - 1 + 1 = j := by omega
    simp only [hjk, if_false, hlast, hback]

theorem exists_of_getElem?_erase (d : SlotDeque α) {k i : Nat} {x : α}
    (h : (d.erase k).elems[i]? = some x) :
    ∃ j, j ≠ k ∧ i = posAfter k j ∧ d.elems[j]? = some x := by
  rw [elems_erase, List.getElem?_eraseIdx] at h
  split at h <;> rename_i hik
  · exact ⟨i, by omega, by simp [posAfter, hik], h⟩
  · refine ⟨i + 1, by omega, ?_, h⟩
    unfold posAfter
    split <;> omega

/-- An element that the erasure does not move keeps its slot. -/
theorem slot_erase_of_not_moved (d : SlotDeque α) {k j : Nat} (hne : j ≠ k)
    (hm : ¬ d.Moved k j) : (d.erase k).slot (posAfter k j) = d.slot j := by
  by_cases hk : k < d.size / 2
  · have hj : ¬ j < k := by simpa only [Moved, hk, if_true] using hm
    simp only [erase, slot, posAfter, hk, hj, if_true, if_false]
    omega
  · have hj : j < k := by
      have : ¬ k < j := by simpa only [Moved, hk, if_false] using hm
      omega
    simp only [erase, slot, posAfter, hk, hj, if_true, if_false]

/-- An element that the erasure moves changes its slot. -/
theorem slot_erase_of_moved (d : SlotDeque α) {k j : Nat} (hm : d.Moved k j) :
    (d.erase k).slot (posAfter k j) ≠ d.slot j := by
  by_cases hk : k < d.size / 2
  · have hj : j < k := by simpa only [Moved, hk, if_true] using hm
    simp only [erase, slot, posAfter, hk, hj, if_true]
    omega
  · have hj : k < j := by simpa only [Moved, hk, if_false] using hm
    have hj' : ¬ j < k := by omega
    simp only [erase, slot, posAfter, hk, hj', if_false]
    omega

end SlotDeque

end Foundation
