import OpcUaBackend.Foundation.Ledger
import OpcUaBackend.Foundation.Machine
import OpcUaBackend.Manager.State

/-!
# The ownership of payloads

A payload is a handle in a ledger. `ManagedDataValue` keeps it with two flags, `hasValue` and
`_clearData`. An object that was moved from keeps its handle and `hasValue`, so it releases the
payload of another object when it is assigned to, or when it is destroyed with `_clearData` set,
which a move construction does not reset.

## Main definitions

* `ManagedValue`, `Payloads`: the objects, and the ledger
* `PayloadOp.run`: the operations
* `SingleOwnership`: nothing is released twice, and no object refers to a released payload
* `Sole`: the operations that keep it

## Main results

* `reach_singleOwnership`: single ownership in every run of such operations
-/

namespace OpcUaBackend

open Foundation

/-! ## The objects -/

/-- A `UA_DataValue`, as far as its payload goes. -/
structure PayloadValue where
  handle : Option ℕ := none
  hasValue : Bool := false
  status : UA_StatusCode := .good
  deriving DecidableEq, Repr

/-- A `ManagedDataValue`, and whether it was moved from since it was given its value. -/
structure ManagedValue where
  val : PayloadValue := {}
  clearData : Bool := false
  movedFrom : Bool := false
  deriving DecidableEq, Repr

structure Payloads where
  objects : ℕ → Option ManagedValue := fun _ => none
  ledger : Ledger := {}

/-- `UA_DataValue_copy` into an empty value. A failed copy leaves it empty. -/
def UA_DataValue_copy (payload hasValue : Bool) (status retval : UA_StatusCode) (l : Ledger) :
    PayloadValue × Ledger :=
  if retval.isGood then
    if payload then ({ handle := some l.next, hasValue := hasValue, status := status }, l.allocate)
    else ({ hasValue := hasValue, status := status }, l)
  else ({}, l)

/-- `UA_DataValue_clear`, which leaves the value empty. -/
def UA_DataValue_clear (v : PayloadValue) (l : Ledger) : Ledger :=
  match v.handle with
  | some h => l.release h
  | none => l

namespace Payloads

def put (o : ℕ) (v : ManagedValue) (s : Payloads) : Payloads :=
  { s with objects := Function.update s.objects o (some v) }

def prepare (o : ℕ) (v : ManagedValue) (s : Payloads) : Payloads :=
  if v.val.hasValue then
    { objects := Function.update s.objects o (some { v with val := {} })
      ledger := UA_DataValue_clear v.val s.ledger }
  else s

/-- The move constructor. The other object is left as it is. -/
def moveConstruct (o other : ℕ) (v : ManagedValue) (s : Payloads) : Payloads :=
  (s.put o { val := v.val, clearData := v.val.hasValue }).put other { v with movedFrom := true }

/-- The move assignment after `prepare`, of an object with the flag `clearData`. -/
def assign (o other : ℕ) (clearData : Bool) (v : ManagedValue) (s : Payloads) : Payloads :=
  (s.put o { val := v.val, clearData := v.val.hasValue || clearData }).put other
    { v with clearData := false, movedFrom := true }

/-- `copyVariant` after `prepare`. The status is only set with a range. -/
def copyPayload (o : ℕ) (v : ManagedValue) (ranged payload : Bool) (retval : UA_StatusCode)
    (s : Payloads) : Payloads :=
  let status := if ranged then retval else v.val.status
  let hasValue := v.val.hasValue || status.isGood
  if retval.isGood && payload then
    { objects := Function.update s.objects o
        (some ⟨⟨some s.ledger.next, hasValue, status⟩, true, false⟩)
      ledger := s.ledger.allocate }
  else s.put o ⟨⟨none, hasValue, status⟩, true, false⟩

end Payloads

/-- The operations on the objects, with what the library answers: whether what is copied has a
payload, and how the copy ends. -/
inductive PayloadOp
  | default (o : ℕ)
  | construct (o : ℕ) (payload hasValue : Bool) (status retval : UA_StatusCode)
  | copyConstruct (o other : ℕ) (retval : UA_StatusCode)
  | moveConstruct (o other : ℕ)
  | moveAssign (o other : ℕ)
  | copyVariant (o : ℕ) (ranged payload : Bool) (retval : UA_StatusCode)
  | destroy (o : ℕ)
  deriving DecidableEq, Repr

/-- An operation on objects that are there, or a construction of one that is not. -/
def PayloadOp.run (s : Payloads) : PayloadOp → Option Payloads
  | .default o => if s.objects o = none then some (s.put o {}) else none
  | .construct o payload hasValue status retval =>
    if s.objects o = none then
      let (val, ledger) := UA_DataValue_copy payload hasValue status retval s.ledger
      some { objects := Function.update s.objects o (some { val := val }), ledger := ledger }
    else none
  | .copyConstruct o other retval =>
    if s.objects o = none then
      match s.objects other with
      | none => none
      | some v =>
        let (val, ledger) :=
          UA_DataValue_copy v.val.handle.isSome v.val.hasValue v.val.status retval s.ledger
        some
          { objects := Function.update s.objects o (some { val := { val with status := retval } })
            ledger := ledger }
    else none
  | .moveConstruct o other =>
    if s.objects o = none then (s.objects other).map fun v => s.moveConstruct o other v else none
  | .moveAssign o other =>
    match s.objects o with
    | none => none
    | some u =>
      -- an object that is assigned to itself is prepared, too
      let s := s.prepare o u
      (s.objects other).map fun v => s.assign o other u.clearData v
  | .copyVariant o ranged payload retval =>
    match s.objects o with
    | none => none
    | some v =>
      let s := s.prepare o v
      (s.objects o).map fun v => s.copyPayload o v ranged payload retval
  | .destroy o =>
    (s.objects o).map fun v =>
      { objects := Function.update s.objects o none
        ledger :=
          if v.val.hasValue && v.clearData then UA_DataValue_clear v.val s.ledger else s.ledger }

/-- All finite sequences of operations, from no objects. -/
def payloads : Machine Payloads PayloadOp where
  init s := s = {}
  step s op s' := op.run s = some s'

/-! ## Single ownership -/

/-- No payload was released twice, and no object with a value that has not been moved from refers
to a released one. -/
structure SingleOwnership (s : Payloads) : Prop where
  once : s.ledger.released.Nodup
  live : ∀ o v h, s.objects o = some v → v.val.hasValue = true → v.movedFrom = false →
    v.val.handle = some h → h ∉ s.ledger.released

/-- The object still refers to the payload that it was moved from with. -/
structure ManagedValue.Spent (v : ManagedValue) : Prop where
  moved : v.movedFrom = true
  hasValue : v.val.hasValue = true
  payload : v.val.handle ≠ none

/-- No object that still refers to a payload it was moved from with is moved from again, assigned
to or given another value, or destroyed with its flag set. -/
def Sole (s : Payloads) : PayloadOp → Prop
  | .default _ | .construct .. | .copyConstruct .. => True
  | .moveConstruct _ other => ∀ v, s.objects other = some v → ¬ v.Spent
  | .moveAssign o other => ∀ v, s.objects o = some v ∨ s.objects other = some v → ¬ v.Spent
  | .copyVariant o .. => ∀ v, s.objects o = some v → ¬ v.Spent
  | .destroy o => ∀ v, s.objects o = some v → v.clearData = true → ¬ v.Spent

/-- The payload that an object owns. -/
def ManagedValue.owned (v : ManagedValue) : Option ℕ :=
  if v.val.hasValue = true ∧ v.movedFrom = false then v.val.handle else none

def Payloads.owned (s : Payloads) (o : ℕ) : Option ℕ := (s.objects o).bind ManagedValue.owned

/-- The invariant. -/
abbrev Payloads.Owned (s : Payloads) : Prop := Owning s.owned s.ledger

section Ownership

variable {s : Payloads} {o other : ℕ} {v : ManagedValue} {l : Ledger}

theorem Payloads.Owned.singleOwnership (h : s.Owned) : SingleOwnership s where
  once := h.nodup
  live := by
    intro o v x ho hvalue hmoved hhandle
    refine h.live o x ?_
    rw [Payloads.owned, ho, Option.bind_some, ManagedValue.owned, if_pos ⟨hvalue, hmoved⟩, hhandle]

/-- What the objects own after one of them was changed. -/
theorem owned_update (objects : ℕ → Option ManagedValue) (u : Option ManagedValue) :
    Payloads.owned ⟨Function.update objects o u, l⟩
      = Function.update (Payloads.owned ⟨objects, l⟩) o (u.bind ManagedValue.owned) := by
  funext p
  show (Function.update objects o u p).bind ManagedValue.owned = _
  by_cases hp : p = o
  · rw [hp, Function.update_self, Function.update_self]
  · rw [Function.update_of_ne hp, Function.update_of_ne hp]
    rfl

/-- An object that owns nothing does not matter. -/
theorem update_none_le {owns : ℕ → Option ℕ} (o p x : ℕ)
    (h : Function.update owns o none p = some x) : owns p = some x := by
  by_cases hp : p = o
  · rw [hp, Function.update_self] at h
    cases h
  · rwa [Function.update_of_ne hp] at h

theorem owned_of_not_hasValue (h : v.val.hasValue = false) : v.owned = none :=
  if_neg fun hand => by simp [h] at hand

theorem owned_of_movedFrom (h : v.movedFrom = true) : v.owned = none :=
  if_neg fun hand => by simp [h] at hand

/-- An object that is not spent owns what it refers to, if it has a value. -/
theorem owned_of_not_spent (hspent : ¬ v.Spent) (hvalue : v.val.hasValue = true) :
    v.owned = v.val.handle := by
  unfold ManagedValue.owned
  split
  · rfl
  · rename_i hmoved
    by_contra hne
    refine hspent ⟨?_, hvalue, fun hnone => hne hnone.symm⟩
    simpa [hvalue] using hmoved

/-- Something that owns nothing or a new payload. -/
def Fresh (owned : Option ℕ) (l l' : Ledger) : Prop :=
  owned = none ∧ (l' = l ∨ l' = l.allocate) ∨ owned = some l.next ∧ l' = l.allocate

theorem Payloads.Owned.fresh (h : s.Owned) (o : ℕ) {u : Option ManagedValue} {l : Ledger}
    (hu : Fresh (u.bind ManagedValue.owned) s.ledger l) :
    Payloads.Owned ⟨Function.update s.objects o u, l⟩ := by
  unfold Payloads.Owned
  rw [owned_update]
  have hnew := h.allocate o
  rcases hu with ⟨hnone, rfl | rfl⟩ | ⟨hsome, rfl⟩
  · rw [hnone]
    exact h.drop fun p x => update_none_le o p x
  · rw [hnone]
    exact hnew.drop fun p x hx => update_none_le o p x (by rwa [Function.update_idem])
  · rw [hsome]
    exact hnew

theorem Payloads.Owned.nothing (h : s.Owned) (o : ℕ) {u : Option ManagedValue}
    (hu : u.bind ManagedValue.owned = none) :
    Payloads.Owned ⟨Function.update s.objects o u, s.ledger⟩ :=
  h.fresh o (.inl ⟨hu, .inl rfl⟩)

/-- A copy has nothing or a new payload. -/
theorem copy_fresh (payload hasValue : Bool) (status retval status' : UA_StatusCode) :
    let copy := UA_DataValue_copy payload hasValue status retval l
    Fresh (ManagedValue.owned { val := { copy.1 with status := status' } }) l copy.2 := by
  unfold UA_DataValue_copy
  split
  · cases payload with
    | false => exact .inl ⟨by simp [ManagedValue.owned], .inl rfl⟩
    | true =>
      cases hasValue with
      | false => exact .inl ⟨owned_of_not_hasValue rfl, .inr rfl⟩
      | true => exact .inr ⟨rfl, rfl⟩
  · exact .inl ⟨owned_of_not_hasValue rfl, .inl rfl⟩

/-- A payload is released by its owner. -/
theorem Payloads.Owned.clear (h : s.Owned) (ho : s.objects o = some v) (hspent : ¬ v.Spent)
    (hvalue : v.val.hasValue = true) {u : Option ManagedValue}
    (hu : u.bind ManagedValue.owned = none) :
    Payloads.Owned ⟨Function.update s.objects o u, UA_DataValue_clear v.val s.ledger⟩ := by
  unfold UA_DataValue_clear
  cases hhandle : v.val.handle with
  | none => exact h.nothing o hu
  | some x =>
    have howned : s.owned o = some x := by
      rw [Payloads.owned, ho, Option.bind_some, owned_of_not_spent hspent hvalue, hhandle]
    show Owning (Payloads.owned ⟨Function.update s.objects o u, _⟩) (s.ledger.release x)
    rw [owned_update, hu]
    exact h.release howned

theorem Payloads.Owned.prepare (h : s.Owned) (ho : s.objects o = some v) (hspent : ¬ v.Spent) :
    (s.prepare o v).Owned := by
  unfold Payloads.prepare
  split
  · rename_i hvalue
    exact h.clear ho hspent hvalue (owned_of_not_hasValue rfl)
  · exact h

/-- After `prepare` an object has no value. -/
theorem prepare_objects (ho : s.objects o = some v) :
    ∃ u, (s.prepare o v).objects o = some u ∧ u.val.hasValue = false := by
  unfold Payloads.prepare
  split
  · exact ⟨_, Function.update_self .., rfl⟩
  · rename_i hvalue
    exact ⟨v, ho, by simpa using hvalue⟩

theorem prepare_objects_ne (hne : other ≠ o) :
    (s.prepare o v).objects other = s.objects other := by
  unfold Payloads.prepare
  split
  · exact Function.update_of_ne hne ..
  · rfl

/-- A value is passed on to another object, and its object does not own it any more. -/
theorem Payloads.Owned.pass (h : s.Owned) (hother : s.objects other = some v)
    (hspent : ¬ v.Spent) {u w : ManagedValue} (hval : u.val = v.val) (hu : u.movedFrom = false)
    (hw : w.movedFrom = true) : ((s.put o u).put other w).Owned := by
  have hvalue : s.owned other = u.owned := by
    rw [Payloads.owned, hother, Option.bind_some]
    by_cases hv : v.val.hasValue = true
    · rw [owned_of_not_spent hspent hv, ManagedValue.owned, hval, if_pos ⟨hv, hu⟩]
    · have hnone : v.val.hasValue = false := by simpa using hv
      rw [owned_of_not_hasValue hnone, owned_of_not_hasValue (by rw [hval]; exact hnone)]
  unfold Payloads.Owned Payloads.put
  rw [owned_update, owned_update, Option.bind_some, Option.bind_some, owned_of_movedFrom hw]
  cases howned : u.owned with
  | none => exact h.drop fun p x hx => update_none_le o p x (update_none_le other p x hx)
  | some x => exact h.move (hvalue.trans howned)

theorem Payloads.Owned.copyPayload (h : s.Owned) (o : ℕ) (v : ManagedValue) (ranged payload : Bool)
    (retval : UA_StatusCode) : (s.copyPayload o v ranged payload retval).Owned := by
  have hnew : ∀ hasValue status, Fresh (ManagedValue.owned
      ⟨⟨some s.ledger.next, hasValue, status⟩, true, false⟩) s.ledger s.ledger.allocate := by
    intro hasValue status
    cases hasValue with
    | false => exact .inl ⟨rfl, .inr rfl⟩
    | true => exact .inr ⟨rfl, rfl⟩
  have hempty : ∀ hasValue status, ManagedValue.owned
      ⟨⟨none, hasValue, status⟩, true, false⟩ = none := by
    intro hasValue status
    simp [ManagedValue.owned]
  unfold Payloads.copyPayload
  by_cases hcopied : (retval.isGood && payload) = true
  · rw [if_pos hcopied]
    exact h.fresh o (hnew ..)
  · rw [if_neg hcopied]
    exact h.nothing o (hempty ..)

/-- An operation keeps the invariant. -/
theorem Payloads.Owned.step {op : PayloadOp} {s' : Payloads} (h : s.Owned) (hsole : Sole s op)
    (hstep : op.run s = some s') : s'.Owned := by
  cases op with
  | default o =>
    simp only [PayloadOp.run] at hstep
    split at hstep
    · obtain rfl := Option.some.inj hstep
      exact h.nothing o (owned_of_not_hasValue rfl)
    · cases hstep
  | construct o payload hasValue status retval =>
    simp only [PayloadOp.run] at hstep
    split at hstep
    · obtain rfl := Option.some.inj hstep
      exact h.fresh o (copy_fresh payload hasValue status retval _)
    · cases hstep
  | copyConstruct o other retval =>
    simp only [PayloadOp.run] at hstep
    split at hstep
    · split at hstep
      · cases hstep
      · obtain rfl := Option.some.inj hstep
        exact h.fresh o (copy_fresh _ _ _ retval retval)
    · cases hstep
  | moveConstruct o other =>
    simp only [PayloadOp.run] at hstep
    split at hstep
    · obtain ⟨v, hv, rfl⟩ := Option.map_eq_some_iff.mp hstep
      exact h.pass hv (hsole v hv) rfl rfl rfl
    · cases hstep
  | moveAssign o other =>
    simp only [PayloadOp.run] at hstep
    split at hstep
    · cases hstep
    · rename_i u hu
      obtain ⟨v, hv, rfl⟩ := Option.map_eq_some_iff.mp hstep
      -- what the object had is released before it takes the other one over
      have hprepared := h.prepare hu (hsole u (.inl hu))
      refine hprepared.pass hv ?_ rfl rfl rfl
      by_cases hne : other = o
      · -- an object that is assigned to itself has no value then
        subst hne
        obtain ⟨w, hw, hnone⟩ := prepare_objects hu
        obtain rfl := Option.some.inj (hw.symm.trans hv)
        exact fun hspent => by simp [hspent.hasValue] at hnone
      · rw [prepare_objects_ne hne] at hv
        exact hsole v (.inr hv)
  | copyVariant o ranged payload retval =>
    simp only [PayloadOp.run] at hstep
    split at hstep
    · cases hstep
    · rename_i v hv
      obtain ⟨w, -, rfl⟩ := Option.map_eq_some_iff.mp hstep
      exact (h.prepare hv (hsole v hv)).copyPayload o w ranged payload retval
  | destroy o =>
    simp only [PayloadOp.run] at hstep
    obtain ⟨v, hv, rfl⟩ := Option.map_eq_some_iff.mp hstep
    split
    · -- the destructor releases the payload of an object that clears its data
      rename_i hclear
      obtain ⟨hvalue, hflag⟩ := Bool.and_eq_true_iff.mp hclear
      exact h.clear hv (hsole v hv hflag) hvalue rfl
    · exact h.nothing o rfl

/-- **Single ownership in every run of operations that leave spent objects alone.** -/
theorem reach_singleOwnership (h : payloads.Reach Sole s) : SingleOwnership s := by
  refine (h.invariant (I := Payloads.Owned) ?_ ?_).singleOwnership
  · rintro s rfl
    exact Owning.empty
  · exact fun s op s' hs hsole hstep => hs.step hsole hstep

end Ownership

/-! ## A slot of a queue that is used again -/

theorem not_spent_of_eq {s : Payloads} {o : ℕ} {u v : ManagedValue} (hu : s.objects o = some u)
    (hmoved : u.movedFrom = false) (hv : s.objects o = some v) : ¬ v.Spent := by
  obtain rfl := Option.some.inj (hu.symm.trans hv)
  intro hspent
  exact absurd hspent.moved (by simp [hmoved])

/-- The operation, where it can be done. -/
def PayloadOp.apply (s : Payloads) (op : PayloadOp) : Payloads := (op.run s).getD s

theorem reach_apply {guard : Payloads → PayloadOp → Prop} {s : Payloads}
    (h : payloads.Reach guard s) (op : PayloadOp) (hguard : guard s op) :
    payloads.Reach guard (op.apply s) := by
  unfold PayloadOp.apply
  cases hrun : op.run s with
  | none => exact h
  | some s' => exact h.step hguard hrun

/-- A value is moved into a slot. -/
theorem reach_singleOwnership_slot : SingleOwnership (PayloadOp.apply (PayloadOp.apply
    (PayloadOp.apply {} (.default 0)) (.construct 1 true true .good .good)) (.moveAssign 0 1)) := by
  refine reach_singleOwnership (reach_apply (reach_apply (reach_apply (.init rfl)
    (.default 0) trivial) (.construct 1 true true .good .good) trivial) (.moveAssign 0 1) ?_)
  rintro v (h | h)
  · exact not_spent_of_eq (u := {}) rfl rfl h
  · exact not_spent_of_eq (u := ⟨⟨some 0, true, .good⟩, false, false⟩) rfl rfl h

/-- Values that go through a slot to an accessor, which is left with a released payload. -/
def throughSlot : List PayloadOp :=
  [.default 0, .default 1, .construct 2 true true .good .good, .moveAssign 0 2, .destroy 2,
    .moveAssign 1 0, .construct 2 true true .good .good, .moveAssign 0 2]

theorem not_singleOwnership_slot :
    payloads.Reachable (throughSlot.foldl PayloadOp.apply {}) ∧
      ¬ SingleOwnership (throughSlot.foldl PayloadOp.apply {}) := by
  refine ⟨?_, fun h => ?_⟩
  · have hall : ∀ (ops : List PayloadOp) (s : Payloads), payloads.Reachable s →
        payloads.Reachable (ops.foldl PayloadOp.apply s) := by
      intro ops
      induction ops with
      | nil => exact fun s h => h
      | cons op ops ih => exact fun s h => ih _ (reach_apply h op trivial)
    exact hall throughSlot {} (.init rfl)
  · exact h.live 1 ⟨⟨some 0, true, .good⟩, true, false⟩ 0 rfl rfl rfl rfl (by decide)

end OpcUaBackend
