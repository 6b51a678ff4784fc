import OpcUaBackend.Catalogue.Entries
import OpcUaBackend.Foundation.Ledger
import OpcUaBackend.Foundation.Machine

/-!
# The ownership of node ids

The elements of a map file and the registers of the catalogue have a node id each, and the text of
an id that is not numeric is allocated. The two classes copy, assign and destroy their ids with the
functions of the client library. An element releases its id before another one is assigned to it;
a register does not, and what it had is lost.

## Main definitions

* `OwnedNodeId`, `NodeIds`: the ids of the objects, and the ledger of their texts
* `NodeIdOp.run`, `nodeIds`: the operations on the objects, and all runs of them
* `Ownership`: no text is released twice, shared, or used after its release
* `Spares`: no register with a text is assigned to

## Main results

* `NodeIdOp.run_keeps`: what an operation keeps, and what it loses
* `steps_noneLost_iff`: ownership in every run, and when no text is lost
-/

namespace OpcUaBackend

open Foundation

/-! ## The objects -/

/-- A `UA_NodeId`, and the handle of its text; `UA_NodeId_init` leaves the null id. -/
structure OwnedNodeId where
  id : UA_NodeId := ⟨0, .numeric 0⟩
  text : Option ℕ := none
  deriving DecidableEq, Repr

/-- An element of a map file or a register. -/
inductive NodeIdObject
  | element (k : ℕ)
  | register (k : ℕ)
  deriving DecidableEq, Repr

structure NodeIds where
  objects : NodeIdObject → Option OwnedNodeId := fun _ => none
  ledger : Ledger := {}

/-- The id has a text that is allocated. -/
def Identifier.isAllocated : Identifier → Bool
  | .numeric _ => false
  | .string text => text != ""

/-- `UA_NodeId_copy`. Without memory it leaves the null id, and nobody looks at its result. -/
def UA_NodeId_copy (src : UA_NodeId) (memory : Bool) (l : Ledger) : OwnedNodeId × Ledger :=
  if src.identifier.isAllocated then
    if memory then (⟨src, some l.next⟩, l.allocate) else ({}, l)
  else (⟨src, none⟩, l)

/-- `UA_NODEID_STRING_ALLOC`. -/
def UA_NODEID_STRING_ALLOC (nsIndex : ℕ) (chars : String) (memory : Bool) (l : Ledger) :
    OwnedNodeId × Ledger :=
  if memory then UA_NodeId_copy ⟨nsIndex, .string (cString chars)⟩ true l
  else (⟨⟨nsIndex, .string ""⟩, none⟩, l)

namespace NodeIds

/-- An object is given an id; what it had is overwritten. -/
def put (s : NodeIds) (o : NodeIdObject) (given : OwnedNodeId × Ledger) : NodeIds :=
  ⟨Function.update s.objects o (some given.1), given.2⟩

/-- The text that an object owns. -/
def owned (s : NodeIds) (o : NodeIdObject) : Option ℕ := (s.objects o).bind OwnedNodeId.text

/-- `UA_NodeId_clear`: the text is released, and the null id is left. -/
def UA_NodeId_clear (s : NodeIds) (o : NodeIdObject) : NodeIds :=
  s.put o ({}, s.ledger.clear (s.owned o))

/-- The id of an object is taken over by another one, and `UA_NodeId_init` leaves the null id. -/
def take (s : NodeIds) (o other : NodeIdObject) (v : OwnedNodeId) : NodeIds :=
  (s.put o (v, s.ledger)).put other ({}, s.ledger)

end NodeIds

/-- The operations on the objects; `memory` says whether there is memory for a copy. -/
inductive NodeIdOp
  -- `MapElement`
  | numericElement (k : ℕ) (ns id : ℕ)
  | stringElement (k : ℕ) (ns : ℕ) (id : String) (memory : Bool)
  | copyElement (k other : ℕ) (memory : Bool)
  | assignElement (k other : ℕ) (memory : Bool)
  | moveElement (k other : ℕ)
  | moveAssignElement (k other : ℕ)
  -- `OpcUABackendRegisterInfo`
  | register (k : ℕ)
  | registerOf (k : ℕ) (idPassed : UA_NodeId) (memory : Bool)
  | copyRegister (k other : ℕ) (memory : Bool)
  | assignRegister (k other : ℕ) (memory : Bool)
  | destroy (o : NodeIdObject)

/-- An object is constructed where there is none. -/
def NodeIds.construct (s : NodeIds) (o : NodeIdObject) (given : OwnedNodeId × Ledger) :
    Option NodeIds :=
  if s.objects o = none then some (s.put o given) else none

/-- The two objects of a copy or an assignment. -/
def NodeIds.pair (s : NodeIds) (o other : NodeIdObject) : Option (OwnedNodeId × OwnedNodeId) :=
  (s.objects o).bind fun v => (s.objects other).map fun w => (v, w)

/-- An operation on objects that are there, or a construction of one that is not. A register that is
assigned to itself would be both ends of a copy, and is left out. -/
def NodeIdOp.run (s : NodeIds) : NodeIdOp → Option NodeIds
  | .numericElement k ns id => s.construct (.element k) (⟨⟨ns, .numeric id⟩, none⟩, s.ledger)
  | .stringElement k ns id memory =>
    s.construct (.element k) (UA_NODEID_STRING_ALLOC ns id memory s.ledger)
  | .copyElement k other memory =>
    (s.objects (.element other)).bind fun v =>
      s.construct (.element k) (UA_NodeId_copy v.id memory s.ledger)
  | .assignElement k other memory =>
    (s.pair (.element k) (.element other)).map fun (_, v) =>
      if k = other then s
      else
        let s := s.UA_NodeId_clear (.element k)
        s.put (.element k) (UA_NodeId_copy v.id memory s.ledger)
  | .moveElement k other =>
    (s.objects (.element other)).bind fun v =>
      if s.objects (.element k) = none then some (s.take (.element k) (.element other) v) else none
  | .moveAssignElement k other =>
    (s.pair (.element k) (.element other)).map fun (_, v) =>
      if k = other then s
      else (s.UA_NodeId_clear (.element k)).take (.element k) (.element other) v
  | .register k => s.construct (.register k) ({}, s.ledger)
  | .registerOf k idPassed memory =>
    s.construct (.register k) (UA_NodeId_copy idPassed memory s.ledger)
  | .copyRegister k other memory =>
    (s.objects (.register other)).bind fun v =>
      s.construct (.register k) (UA_NodeId_copy v.id memory s.ledger)
  | .assignRegister k other memory =>
    if k = other then none
    else
      (s.pair (.register k) (.register other)).map fun (_, v) =>
        -- the text that the register had is not released
        s.put (.register k) (UA_NodeId_copy v.id memory s.ledger)
  | .destroy o =>
    (s.objects o).map fun _ =>
      ⟨Function.update s.objects o none, s.ledger.clear (s.owned o)⟩

/-- All finite sequences of operations, from no objects. -/
def nodeIds : Machine NodeIds NodeIdOp where
  init s := s = {}
  step s op s' := op.run s = some s'

/-! ## What a run keeps -/

/-- No text was released twice, or is owned by two objects or after its release, and an object has
a text exactly if its id is a text that is not empty. -/
structure Ownership (s : NodeIds) : Prop where
  once : s.ledger.released.Nodup
  live : ∀ o v x, s.objects o = some v → v.text = some x → x ∉ s.ledger.released
  single : ∀ o o' v v' x, s.objects o = some v → s.objects o' = some v' → v.text = some x →
    v'.text = some x → o = o'
  text : ∀ o v, s.objects o = some v → v.text.isSome = v.id.identifier.isAllocated

/-- The operation assigns to a register that has this text. -/
def NodeIdOp.Overwrites (s : NodeIds) (x : ℕ) : NodeIdOp → Prop
  | .assignRegister k _ _ => s.owned (.register k) = some x
  | _ => False

/-- No register with a text is assigned to. -/
def Spares (s : NodeIds) (op : NodeIdOp) : Prop := ∀ x, ¬ op.Overwrites s x

/-- An id refers to a text exactly if it has one. -/
def OwnedNodeId.Referring (v : OwnedNodeId) : Prop := v.text.isSome = v.id.identifier.isAllocated

theorem null_referring : OwnedNodeId.Referring {} := rfl

theorem numeric_referring (ns id : ℕ) : OwnedNodeId.Referring ⟨⟨ns, .numeric id⟩, none⟩ := rfl

theorem copy_supplied (src : UA_NodeId) (memory : Bool) (l : Ledger) :
    Supplied (UA_NodeId_copy src memory l).1.text l (UA_NodeId_copy src memory l).2 ∧
      (UA_NodeId_copy src memory l).1.Referring := by
  unfold UA_NodeId_copy
  cases halloc : src.identifier.isAllocated with
  | false => exact ⟨.inl ⟨rfl, rfl⟩, halloc.symm⟩
  | true =>
    cases memory with
    | false => exact ⟨.inl ⟨rfl, rfl⟩, rfl⟩
    | true => exact ⟨.inr ⟨rfl, rfl⟩, halloc.symm⟩

theorem stringAlloc_supplied (nsIndex : ℕ) (chars : String) (memory : Bool) (l : Ledger) :
    Supplied (UA_NODEID_STRING_ALLOC nsIndex chars memory l).1.text l
        (UA_NODEID_STRING_ALLOC nsIndex chars memory l).2 ∧
      (UA_NODEID_STRING_ALLOC nsIndex chars memory l).1.Referring := by
  unfold UA_NODEID_STRING_ALLOC
  split
  · exact copy_supplied ..
  · exact ⟨.inl ⟨rfl, rfl⟩, rfl⟩

/-- The invariant. -/
structure NodeIds.Owned (s : NodeIds) : Prop where
  owning : Owning s.owned s.ledger
  referring : ∀ o v, s.objects o = some v → v.Referring

/-- The invariant is kept, and these texts are lost. -/
def Keeps (s s' : NodeIds) (lost : ℕ → Prop) : Prop :=
  s.Owned → s'.Owned ∧ ∀ x, Lost s'.owned s'.ledger x ↔ Lost s.owned s.ledger x ∨ lost x

section Steps

variable {s s' s'' : NodeIds} {o other : NodeIdObject} {v : OwnedNodeId} {lost : ℕ → Prop}

theorem NodeIds.Owned.ownership (h : s.Owned) : Ownership s where
  once := h.owning.nodup
  live o v x ho hx := h.owning.live o x (by rw [owned, ho, Option.bind_some, hx])
  single o o' v v' x ho ho' hx hx' := by
    apply h.owning.single o o' x
    · rw [owned, ho, Option.bind_some, hx]
    · rw [owned, ho', Option.bind_some, hx']
  text := h.referring

namespace Keeps

theorem after (h : Keeps s s' fun _ => False) (h' : Keeps s' s'' lost) : Keeps s s'' lost := by
  intro hs
  obtain ⟨hs', hlost⟩ := h hs
  obtain ⟨hs'', hlost'⟩ := h' hs'
  refine ⟨hs'', fun x => ?_⟩
  rw [hlost', hlost, or_false]

theorem nothing (s : NodeIds) : Keeps s s fun _ => False :=
  fun hs => ⟨hs, fun _ => (or_false _).to_iff.symm⟩

end Keeps

theorem owned_objects (objects : NodeIdObject → Option OwnedNodeId) (u : Option OwnedNodeId)
    (l : Ledger) : NodeIds.owned ⟨Function.update objects o u, l⟩
      = Function.update (NodeIds.owned ⟨objects, l⟩) o (u.bind OwnedNodeId.text) :=
  Function.comp_update (fun u : Option OwnedNodeId => u.bind OwnedNodeId.text) objects o u

theorem referring_update {objects : NodeIdObject → Option OwnedNodeId}
    (h : ∀ p w, objects p = some w → w.Referring) {u : Option OwnedNodeId}
    (hu : ∀ v ∈ u, v.Referring) (p : NodeIdObject) (w : OwnedNodeId)
    (hp : Function.update objects o u p = some w) : w.Referring := by
  by_cases hpo : p = o
  · rw [hpo, Function.update_self] at hp
    exact hu w hp
  · rw [Function.update_of_ne hpo] at hp
    exact h p w hp

/-- An id is given to an object: what it had is lost. -/
theorem keeps_put (o : NodeIdObject) {given : OwnedNodeId × Ledger}
    (hgiven : Supplied given.1.text s.ledger given.2) (hrefers : given.1.Referring) :
    Keeps s (s.put o given) fun x => s.owned o = some x := by
  intro h
  have howned : (s.put o given).owned = Function.update s.owned o given.1.text :=
    owned_objects s.objects (some given.1) given.2
  refine ⟨⟨?_, referring_update h.referring fun v hv => ?_⟩, fun x => ?_⟩
  · rw [howned]
    exact h.owning.supply o hgiven
  · exact Option.some.inj hv ▸ hrefers
  · rw [howned]
    exact h.owning.lost_supply o hgiven

/-- An object without a text is given an id. -/
theorem keeps_put_empty {given : OwnedNodeId × Ledger}
    (hgiven : Supplied given.1.text s.ledger given.2) (hrefers : given.1.Referring)
    (hempty : s.owned o = none) : Keeps s (s.put o given) fun _ => False := by
  have h := keeps_put o hgiven hrefers
  simpa only [hempty, reduceCtorEq] using h

theorem keeps_construct {given : OwnedNodeId × Ledger}
    (hgiven : Supplied given.1.text s.ledger given.2) (hrefers : given.1.Referring)
    (hs : s.construct o given = some s') : Keeps s s' fun _ => False := by
  unfold NodeIds.construct at hs
  split at hs
  · rename_i hnone
    obtain rfl := Option.some.inj hs
    apply keeps_put_empty hgiven hrefers
    rw [NodeIds.owned, hnone, Option.bind_none]
  · cases hs

/-- The text of an object is released, and the object has none or is gone. -/
theorem keeps_clear (o : NodeIdObject) {u : Option OwnedNodeId} (hu : ∀ v ∈ u, v = {}) :
    Keeps s ⟨Function.update s.objects o u, s.ledger.clear (s.owned o)⟩ fun _ => False := by
  intro h
  have hnone : u.bind OwnedNodeId.text = none := by
    cases u with
    | none => rfl
    | some v => rw [hu v rfl]; rfl
  have howned : NodeIds.owned ⟨Function.update s.objects o u, s.ledger.clear (s.owned o)⟩
      = Function.update s.owned o none := hnone ▸ owned_objects s.objects u _
  refine ⟨⟨?_, referring_update h.referring fun v hv => ?_⟩, fun x => ?_⟩
  · rw [howned]
    exact h.owning.clear o
  · rw [hu v hv]
    exact null_referring
  · rw [howned, or_false]
    exact h.owning.lost_clear o

theorem UA_NodeId_clear_keeps (s : NodeIds) (o : NodeIdObject) :
    Keeps s (s.UA_NodeId_clear o) fun _ => False :=
  keeps_clear o fun _ hv => (Option.some.inj hv).symm

theorem owned_clear (s : NodeIds) (o : NodeIdObject) : (s.UA_NodeId_clear o).owned o = none := by
  show (Function.update s.objects o (some {}) o).bind OwnedNodeId.text = none
  rw [Function.update_self]
  rfl

/-- An id is taken over by an object without a text. -/
theorem keeps_take (hother : s.objects other = some v) (hempty : s.owned o = none) :
    Keeps s (s.take o other v) fun _ => False := by
  intro h
  have howned : (s.take o other v).owned
      = Function.update (Function.update s.owned o (s.owned other)) other none := by
    have htext : s.owned other = v.text := by rw [NodeIds.owned, hother, Option.bind_some]
    rw [htext]
    exact (owned_objects (Function.update s.objects o (some v)) (some {}) s.ledger).trans
      (congrArg (Function.update · other none) (owned_objects s.objects (some v) s.ledger))
  refine ⟨⟨?_, ?_⟩, fun x => ?_⟩
  · rw [howned]
    exact h.owning.pass
  · apply referring_update
    · exact referring_update h.referring fun w hw =>
        Option.some.inj hw ▸ h.referring other v hother
    · exact fun w hw => Option.some.inj hw ▸ null_referring
  · rw [howned, or_false]
    exact lost_pass hempty

theorem pair_eq_some {w : OwnedNodeId} (h : s.pair o other = some (v, w)) :
    s.objects o = some v ∧ s.objects other = some w := by
  obtain ⟨v', hv, h⟩ := Option.bind_eq_some_iff.mp h
  obtain ⟨w', hw, h⟩ := Option.map_eq_some_iff.mp h
  obtain ⟨rfl, rfl⟩ := Prod.mk.inj h
  exact ⟨hv, hw⟩

/-- **An operation** keeps the invariant, and loses the text of a register that is assigned to. -/
theorem NodeIdOp.run_keeps {op : NodeIdOp} (hrun : op.run s = some s') :
    Keeps s s' fun x => op.Overwrites s x := by
  cases op with
  | numericElement k ns id => exact keeps_construct (.inl ⟨rfl, rfl⟩) (numeric_referring ns id) hrun
  | stringElement k ns id memory =>
    obtain ⟨hsupplied, hrefers⟩ := stringAlloc_supplied ns id memory s.ledger
    exact keeps_construct hsupplied hrefers hrun
  | copyElement k other memory =>
    obtain ⟨v, -, hrun⟩ := Option.bind_eq_some_iff.mp hrun
    obtain ⟨hsupplied, hrefers⟩ := copy_supplied v.id memory s.ledger
    exact keeps_construct hsupplied hrefers hrun
  | assignElement k other memory =>
    obtain ⟨⟨u, v⟩, -, rfl⟩ := Option.map_eq_some_iff.mp hrun
    simp only
    split
    · exact .nothing s
    · -- the element is cleared before it gets the copy
      obtain ⟨hsupplied, hrefers⟩ :=
        copy_supplied v.id memory (s.UA_NodeId_clear (.element k)).ledger
      apply (UA_NodeId_clear_keeps s (.element k)).after
      exact keeps_put_empty hsupplied hrefers (owned_clear s (.element k))
  | moveElement k other =>
    obtain ⟨v, hv, hrun⟩ := Option.bind_eq_some_iff.mp hrun
    split at hrun
    · rename_i hnone
      obtain rfl := Option.some.inj hrun
      apply keeps_take hv
      rw [NodeIds.owned, hnone, Option.bind_none]
    · cases hrun
  | moveAssignElement k other =>
    obtain ⟨⟨u, v⟩, hpair, rfl⟩ := Option.map_eq_some_iff.mp hrun
    obtain ⟨-, hv⟩ := pair_eq_some hpair
    simp only
    split
    · exact .nothing s
    · rename_i hne
      have hother : NodeIdObject.element other ≠ .element k :=
        fun he => hne (NodeIdObject.element.inj he).symm
      apply (UA_NodeId_clear_keeps s (.element k)).after
      exact keeps_take ((Function.update_of_ne hother ..).trans hv) (owned_clear s (.element k))
  | register k => exact keeps_construct (.inl ⟨rfl, rfl⟩) null_referring hrun
  | registerOf k idPassed memory =>
    obtain ⟨hsupplied, hrefers⟩ := copy_supplied idPassed memory s.ledger
    exact keeps_construct hsupplied hrefers hrun
  | copyRegister k other memory =>
    obtain ⟨v, -, hrun⟩ := Option.bind_eq_some_iff.mp hrun
    obtain ⟨hsupplied, hrefers⟩ := copy_supplied v.id memory s.ledger
    exact keeps_construct hsupplied hrefers hrun
  | assignRegister k other memory =>
    simp only [NodeIdOp.run] at hrun
    split at hrun
    · cases hrun
    · obtain ⟨⟨u, v⟩, -, rfl⟩ := Option.map_eq_some_iff.mp hrun
      obtain ⟨hsupplied, hrefers⟩ := copy_supplied v.id memory s.ledger
      exact keeps_put (.register k) hsupplied hrefers
  | destroy o =>
    obtain ⟨v, -, rfl⟩ := Option.map_eq_some_iff.mp hrun
    exact keeps_clear o (by simp)

/-- **A run** keeps the invariant, and no text is lost exactly if none was and no register with a
text was assigned to. -/
theorem steps_lost {ops : List NodeIdOp} (h : s.Owned)
    (hs : nodeIds.Steps (fun _ _ => True) s ops s') :
    s'.Owned ∧ ((∀ x, ¬ Lost s'.owned s'.ledger x) ↔
      (∀ x, ¬ Lost s.owned s.ledger x) ∧ nodeIds.Steps Spares s ops s') := by
  induction hs with
  | nil s => exact ⟨h, fun hlost => ⟨hlost, .nil s⟩, fun hlost => hlost.1⟩
  | @cons s op s₁ ops s' _ hstep _ ih =>
    obtain ⟨h₁, hlost⟩ := NodeIdOp.run_keeps hstep h
    obtain ⟨h', hiff⟩ := ih h₁
    refine ⟨h', hiff.trans ⟨fun ⟨hnone, hsteps⟩ => ?_, fun ⟨hnone, hsteps⟩ => ?_⟩⟩
    · simp only [hlost, not_or] at hnone
      exact ⟨fun x => (hnone x).1, .cons (fun x => (hnone x).2) hstep hsteps⟩
    · cases hsteps with
      | cons hspares hstep' hsteps =>
        obtain rfl := Option.some.inj (hstep.symm.trans hstep')
        refine ⟨fun x => ?_, hsteps⟩
        rw [hlost, not_or]
        exact ⟨hnone x, hspares x⟩

/-- **The ownership of node ids.** In every run of constructions, copies, assignments, moves and
destructions, no text is released twice, shared or used after its release; and every text was
released or is owned, exactly if no register with a text was ever assigned to. -/
theorem steps_noneLost_iff {ops : List NodeIdOp}
    (hs : nodeIds.Steps (fun _ _ => True) {} ops s) :
    Ownership s ∧ ((∀ x < s.ledger.next, x ∈ s.ledger.released ∨ ∃ o, s.owned o = some x) ↔
      nodeIds.Steps Spares {} ops s) := by
  have hinit : NodeIds.Owned {} := ⟨.empty, fun _ _ ho => nomatch ho⟩
  obtain ⟨h, hiff⟩ := steps_lost hinit hs
  have hnone : ∀ x, ¬ Lost (NodeIds.owned {}) (NodeIds.ledger {}) x :=
    fun x hlost => absurd hlost.given (Nat.not_lt_zero x)
  refine ⟨h.ownership, ?_⟩
  rw [← and_iff_right (b := nodeIds.Steps Spares {} ops s) hnone, ← hiff]
  constructor
  · rintro hall x ⟨hgiven, hunreleased, hunowned⟩
    rcases hall x hgiven with hreleased | ⟨o, ho⟩
    · exact hunreleased hreleased
    · exact hunowned o ho
  · intro hlost x hgiven
    by_contra hneither
    rw [not_or, not_exists] at hneither
    exact hlost x ⟨hgiven, hneither.1, hneither.2⟩

end Steps

/-- The id of an element that was moved becomes that of a register and of its copy, and all are
destroyed. -/
def handedOn : List NodeIdOp :=
  [.stringElement 0 1 "a" true, .moveElement 1 0, .destroy (.element 0),
    .registerOf 0 ⟨1, .string "a"⟩ true, .copyRegister 1 0 true, .destroy (.element 1),
    .destroy (.register 0), .destroy (.register 1)]

theorem steps_noneLost_iff_handedOn : ∃ s, nodeIds.Steps (fun _ _ => True) {} handedOn s ∧
    s.ledger.next = 3 ∧ ∀ x < 3, x ∈ s.ledger.released ∨ ∃ o, s.owned o = some x := by
  have hspares : ∃ s, nodeIds.Steps Spares {} handedOn s ∧ s.ledger.next = 3 :=
    ⟨_, .cons (fun _ h => h) rfl (.cons (fun _ h => h) rfl (.cons (fun _ h => h) rfl
      (.cons (fun _ h => h) rfl (.cons (fun _ h => h) rfl (.cons (fun _ h => h) rfl
        (.cons (fun _ h => h) rfl (.cons (fun _ h => h) rfl (.nil _)))))))), rfl⟩
  obtain ⟨s, hs, hnext⟩ := hspares
  have hsteps : nodeIds.Steps (fun _ _ => True) {} handedOn s := hs.mono fun _ _ _ => trivial
  exact ⟨s, hsteps, hnext, hnext ▸ (steps_noneLost_iff hsteps).2.mpr hs⟩

end OpcUaBackend
