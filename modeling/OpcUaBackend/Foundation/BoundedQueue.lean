import Mathlib.Data.List.Perm.Basic

/-!
# Bounded queues that overwrite their newest element

A queue of fixed capacity whose overwriting push never blocks: on a full queue it replaces
the element pushed last. So the element pushed last is always in the queue until it is
popped.

## Main definitions

* `BoundedQueue.pushOverwrite`, `BoundedQueue.front?`, `BoundedQueue.pop`
* `BoundedQueue.Use`, `BoundedQueue.uses`: a queue that is used for a while
* `BoundedQueue.taken`, `BoundedQueue.overwritten`: what becomes of the elements

## Main results

* `BoundedQueue.newest?_pushOverwrite`: the element pushed last is the newest one
* `BoundedQueue.taken_append_sublist`: elements are taken out in the order of their pushes
* `BoundedQueue.taken_append_perm`: those that are missing were overwritten
* `BoundedQueue.getLast?_taken_append`: the element pushed last is never lost
-/

namespace Foundation

/-- A queue of at most `capacity` elements, the oldest first. -/
structure BoundedQueue (α : Type*) where
  capacity : Nat
  elems : List α := []

namespace BoundedQueue

variable {α : Type*}

/-- The oldest element. -/
def front? (q : BoundedQueue α) : Option α := q.elems.head?

/-- The element pushed last, while it is in the queue. -/
def newest? (q : BoundedQueue α) : Option α := q.elems.getLast?

/-- Push an element; on a full queue it replaces the newest one. -/
def pushOverwrite (q : BoundedQueue α) (x : α) : BoundedQueue α :=
  if q.elems.length < q.capacity then { q with elems := q.elems ++ [x] }
  else { q with elems := q.elems.dropLast ++ [x] }

/-- Remove the oldest element. -/
def pop (q : BoundedQueue α) : BoundedQueue α := { q with elems := q.elems.tail }

@[simp] theorem newest?_pushOverwrite (q : BoundedQueue α) (x : α) :
    (q.pushOverwrite x).newest? = some x := by
  unfold pushOverwrite newest?
  split <;> simp

/-! ## A queue in use -/

/-- An element is pushed, or the oldest one is taken out. -/
inductive Use (α : Type*)
  | push (x : α)
  | pop

/-- The element that is pushed. -/
def Use.pushed? : Use α → Option α
  | push x => some x
  | pop => none

/-- The elements that are pushed, in this order. -/
def pushed (us : List (Use α)) : List α := us.filterMap Use.pushed?

@[simp] theorem pushed_nil : pushed ([] : List (Use α)) = [] := rfl

@[simp] theorem pushed_push (x : α) (us : List (Use α)) :
    pushed (.push x :: us) = x :: pushed us := rfl

@[simp] theorem pushed_pop (us : List (Use α)) : pushed (.pop :: us) = pushed us := rfl

theorem pushed_append (us us' : List (Use α)) : pushed (us ++ us') = pushed us ++ pushed us' :=
  List.filterMap_append

theorem pushed_map (xs : List α) : pushed (xs.map Use.push) = xs := by
  induction xs with
  | nil => rfl
  | cons x xs ih => rw [List.map_cons, pushed_push, ih]

def use (q : BoundedQueue α) : Use α → BoundedQueue α
  | .push x => q.pushOverwrite x
  | .pop => q.pop

def uses (q : BoundedQueue α) (us : List (Use α)) : BoundedQueue α := us.foldl use q

/-- The elements that are taken out, in this order. -/
def taken : BoundedQueue α → List (Use α) → List α
  | _, [] => []
  | q, .push x :: us => taken (q.pushOverwrite x) us
  | q, .pop :: us => q.front?.toList ++ taken q.pop us

/-- The elements that are replaced by others, in this order. -/
def overwritten : BoundedQueue α → List (Use α) → List α
  | _, [] => []
  | q, .push x :: us =>
    (if q.elems.length < q.capacity then [] else q.newest?.toList)
      ++ overwritten (q.pushOverwrite x) us
  | q, .pop :: us => overwritten q.pop us

@[simp] theorem capacity_pushOverwrite (q : BoundedQueue α) (x : α) :
    (q.pushOverwrite x).capacity = q.capacity := by
  unfold pushOverwrite
  split <;> rfl

@[simp] theorem capacity_pop (q : BoundedQueue α) : q.pop.capacity = q.capacity := rfl

@[simp] theorem uses_nil (q : BoundedQueue α) : q.uses [] = q := rfl

@[simp] theorem uses_cons (q : BoundedQueue α) (u : Use α) (us : List (Use α)) :
    q.uses (u :: us) = (q.use u).uses us := rfl

theorem uses_append (q : BoundedQueue α) (us us' : List (Use α)) :
    q.uses (us ++ us') = (q.uses us).uses us' := List.foldl_append

theorem taken_append (q : BoundedQueue α) (us us' : List (Use α)) :
    q.taken (us ++ us') = q.taken us ++ (q.uses us).taken us' := by
  induction us generalizing q with
  | nil => rfl
  | cons u us ih =>
    cases u with
    | push x => exact ih (q.pushOverwrite x)
    | pop =>
      show q.front?.toList ++ q.pop.taken (us ++ us') = _
      rw [ih, ← List.append_assoc]
      rfl

/-- Pushes take nothing out. -/
theorem taken_push (q : BoundedQueue α) (xs : List α) : q.taken (xs.map Use.push) = [] := by
  induction xs generalizing q with
  | nil => rfl
  | cons x xs ih => exact ih (q.pushOverwrite x)

theorem front?_append_pop (q : BoundedQueue α) : q.front?.toList ++ q.pop.elems = q.elems := by
  unfold front? pop
  cases q.elems <;> rfl

/-- A push appends an element, perhaps after the newest one is gone. -/
theorem pushOverwrite_elems (q : BoundedQueue α) (x : α) : ∃ kept lost,
    q.elems = kept ++ lost ∧ (q.pushOverwrite x).elems = kept ++ [x] ∧
      lost = if q.elems.length < q.capacity then [] else q.newest?.toList := by
  unfold pushOverwrite newest?
  split
  · exact ⟨q.elems, [], (List.append_nil _).symm, rfl, rfl⟩
  · refine ⟨q.elems.dropLast, q.elems.getLast?.toList, ?_, rfl, rfl⟩
    cases hlast : q.elems.getLast? with
    | none => simp [List.getLast?_eq_none_iff.mp hlast]
    | some y => exact (List.dropLast_append_getLast? y hlast).symm

/-- **In order, and once.** The elements that are taken out, and then those still there, are some
of those there at first and of those pushed. -/
theorem taken_append_sublist (q : BoundedQueue α) (us : List (Use α)) :
    (q.taken us ++ (q.uses us).elems).Sublist (q.elems ++ pushed us) := by
  induction us generalizing q with
  | nil => simp [taken]
  | cons u us ih =>
    cases u with
    | push x =>
      obtain ⟨kept, lost, hold, hnew, -⟩ := q.pushOverwrite_elems x
      have hrest := ih (q.pushOverwrite x)
      rw [hnew, List.append_assoc] at hrest
      apply hrest.trans
      rw [hold, List.append_assoc, pushed_push]
      exact (List.sublist_append_right lost _).append_left kept
    | pop =>
      have hrest := (ih q.pop).append_left q.front?.toList
      rwa [← List.append_assoc, ← List.append_assoc, front?_append_pop] at hrest

/-- **Nothing else is lost**: elements that are neither taken out nor still there were
overwritten. -/
theorem taken_append_perm (q : BoundedQueue α) (us : List (Use α)) :
    (q.taken us ++ (q.uses us).elems ++ q.overwritten us).Perm (q.elems ++ pushed us) := by
  induction us generalizing q with
  | nil => simp [taken, overwritten]
  | cons u us ih =>
    cases u with
    | push x =>
      obtain ⟨kept, lost, hold, hnew, hlost⟩ := q.pushOverwrite_elems x
      have hrest := ih (q.pushOverwrite x)
      rw [hnew] at hrest
      rw [taken, overwritten, ← hlost, hold, pushed_push, uses_cons]
      -- what is lost now is counted before what is lost later
      apply (List.perm_append_comm_assoc _ lost _).trans
      apply (hrest.append_left lost).trans
      rw [List.append_assoc, List.append_assoc]
      exact List.perm_append_comm_assoc lost kept (x :: pushed us)
    | pop =>
      have hrest := (ih q.pop).append_left q.front?.toList
      rwa [← List.append_assoc, ← List.append_assoc, ← List.append_assoc, front?_append_pop]
        at hrest

/-- **The newest stays**: the element pushed last is in the queue, or taken out as the last one. -/
theorem getLast?_taken_append (q : BoundedQueue α) (us : List (Use α)) :
    (q.taken us ++ (q.uses us).elems).getLast? = (q.elems ++ pushed us).getLast? := by
  induction us generalizing q with
  | nil => simp [taken]
  | cons u us ih =>
    cases u with
    | push x =>
      obtain ⟨kept, lost, hold, hnew, -⟩ := q.pushOverwrite_elems x
      rw [taken, uses_cons]
      apply (ih (q.pushOverwrite x)).trans
      rw [hnew, pushed_push, List.append_assoc, List.singleton_append]
      simp only [List.getLast?_append, List.getLast?_cons, Option.some_or]
    | pop =>
      rw [taken, uses_cons, List.append_assoc, List.getLast?_append]
      rw [show (q.use .pop) = q.pop from rfl, ih q.pop, ← front?_append_pop q]
      simp only [List.getLast?_append, pushed_pop, Option.or_assoc]

/-- A queue that is not too long stays so. -/
theorem length_uses_le {q : BoundedQueue α} (hcapacity : 0 < q.capacity)
    (hlength : q.elems.length ≤ q.capacity) (us : List (Use α)) :
    (q.uses us).elems.length ≤ q.capacity := by
  induction us generalizing q with
  | nil => exact hlength
  | cons u us ih =>
    have hstep : (q.use u).capacity = q.capacity ∧ (q.use u).elems.length ≤ q.capacity := by
      cases u with
      | push x =>
        refine ⟨capacity_pushOverwrite q x, ?_⟩
        show (q.pushOverwrite x).elems.length ≤ q.capacity
        unfold pushOverwrite
        split <;> simp only [List.length_append, List.length_dropLast, List.length_singleton] <;>
          omega
      | pop =>
        refine ⟨rfl, ?_⟩
        show q.elems.tail.length ≤ q.capacity
        rw [List.length_tail]
        omega
    rw [uses_cons, ← hstep.1]
    exact ih (hstep.1.symm ▸ hcapacity) (hstep.1.symm ▸ hstep.2)

end BoundedQueue

end Foundation
