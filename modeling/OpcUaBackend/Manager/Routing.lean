import OpcUaBackend.Manager.Registration

/-!
# Routing of notifications

What `subscriptionMap` is for: a notification for a monitored item goes to the accessors of the
item that is monitored under its id, and to no other accessor. As long as items are removed
safely the map does this in every state between calls. An erasure that moves a monitored item
into another slot leaves its address behind, and the map then denotes another item or a
destroyed slot.

## Main definitions

* `World.receivers`: the accessors a notification is for, without regard to addresses
* `Routed`, `Delivered`: what the routing promises of a state and of a notification

## Main results

* `removeItem_coherent_iff`: an erasure keeps the addresses exactly when it is safe
* `reach_routed`: the routing in every state between calls
-/

namespace OpcUaBackend

open Foundation

variable {V : Type} {w w' : World V}

/-! ## What the routing is for -/

/-- The library gave out `monId` for a request about `node`. -/
def HandedOut (history : List (Event V)) (node : UA_NodeId) (monId : Nat) : Prop :=
  ∃ request result, .createDataChange request result ∈ history ∧
    result.statusCode.isGood = true ∧ request.node = node ∧ result.monitoredItemId = monId

/-- The item that is monitored under an id. -/
def World.served (w : World V) (monId : Nat) : Option MonitorItem :=
  w.items.elems.find? fun item => item.isMonitored && item.id == monId

/-- The accessors a notification for `monId` is for: those of the item monitored under this id,
while it is active. -/
def World.receivers (w : World V) (monId : Nat) : List Accessor :=
  match w.served monId with
  | some item => if item.active then item.accessors else []
  | none => []

/-- `w'` is `w` after `n` was pushed to the accessors `as` and to no other. -/
structure Delivered (n : Notification V) (as : List Accessor) (w w' : World V) : Prop where
  history : w'.history = (as.map fun a => .pushed a n).reverse ++ w.history
  newest : ∀ a ∈ as, (w'.accessors a).notifications.newest? = some n
  others : ∀ a, a ∉ as → w'.accessors a = w.accessors a
  fault : w'.fault = w.fault

/-- The addresses denote the items they are kept for, every monitored item has one, and
notifications go where they are for. -/
structure Routed (w : World V) : Prop where
  targets : ∀ monId p, w.subscriptionMap.lookup monId = some p →
    ∃ item, w.items.get? p = some item ∧ item.id = monId ∧
      HandedOut w.history item.node monId
  monitored : ∀ i item, w.items.elems[i]? = some item → item.isMonitored = true →
    w.subscriptionMap.lookup item.id = some (w.items.slot i)
  delivers : ∀ monId value,
    Delivered (.data value) (w.receivers monId) w (responseHandler monId value w)

/-! ## Pushing -/

theorem pushAll_delivered (n : Notification V) (as : List Accessor) (w : World V) :
    Delivered n as w (w.pushAll n as) := by
  induction as generalizing w with
  | nil => exact ⟨rfl, by simp, fun _ _ => rfl, rfl⟩
  | cons a as ih =>
    obtain ⟨hhistory, hnewest, hothers, hfault⟩ := ih (w.push n a)
    refine ⟨?_, ?_, ?_, hfault⟩
    · show ((w.push n a).pushAll n as).history = _
      rw [hhistory]
      simp [World.push, World.record]
    · intro b hb
      by_cases hmem : b ∈ as
      · exact hnewest b hmem
      · obtain rfl : b = a := (List.mem_cons.mp hb).resolve_right hmem
        show (((w.push n b).pushAll n as).accessors b).notifications.newest? = _
        rw [hothers b hmem]
        simp [World.push, World.record]
    · intro b hb
      obtain ⟨hne, hmem⟩ := not_or.mp (mt List.mem_cons.mpr hb)
      refine (hothers b hmem).trans ?_
      simp [World.push, World.record, Function.update_of_ne hne]

/-! ## Coherent addresses route -/

/-- The registration of an item is in the history. -/
theorem handedOut_of_registration {h : List (Event V)} {browseName : String}
    {q : MonitoredItemCreateRequest × MonitoredItemCreateResult}
    (hq : registration h browseName = some q) :
    HandedOut h q.1.node q.2.monitoredItemId := by
  obtain ⟨e, hmem, he⟩ := List.exists_of_findSome?_eq_some hq
  simp only [Event.registersItem, Option.filter_eq_some_iff] at he
  obtain ⟨rfl, hgood⟩ := Event.eq_of_registers he.1
  exact ⟨q.1, q.2, (since_initial _ _).subset hmem, hgood, rfl, rfl⟩

/-- An address denotes the item monitored under its id. -/
theorem Coherent.served_eq (h : Coherent w) {monId p : Nat}
    (hl : w.subscriptionMap.lookup monId = some p) :
    ∃ item, w.items.get? p = some item ∧ w.served monId = some item := by
  obtain ⟨i, item, rfl, hitem, hid, hm⟩ := h.sound monId p hl
  refine ⟨item, by rw [SlotDeque.get?_slot, hitem], ?_⟩
  have hsome : (w.served monId).isSome := by
    rw [World.served, List.find?_isSome]
    exact ⟨item, List.mem_of_getElem? hitem, by simp [hid, hm]⟩
  obtain ⟨found, hfound⟩ := Option.isSome_iff_exists.mp hsome
  -- the item found has the same address, hence the same position
  obtain ⟨j, hj⟩ := List.mem_iff_getElem?.mp (List.mem_of_find?_eq_some hfound)
  have hkey : found.isMonitored = true ∧ found.id = monId := by
    simpa using List.find?_some hfound
  have hslot := h.complete j found hj hkey.1
  rw [hkey.2, hl, Option.some_inj, w.items.slot_inj] at hslot
  rw [hfound, ← hj, ← hslot, hitem]

theorem Coherent.served_none (h : Coherent w) {monId : Nat}
    (hl : w.subscriptionMap.lookup monId = none) : w.served monId = none := by
  refine List.find?_eq_none.mpr fun item hmem hkey => ?_
  obtain ⟨i, hi⟩ := List.mem_iff_getElem?.mp hmem
  obtain ⟨hm, hid⟩ : item.isMonitored = true ∧ item.id = monId := by simpa using hkey
  have hsome := h.complete i item hi hm
  rw [hid, hl] at hsome
  cases hsome

/-- A notification goes where it is for when the addresses are coherent. -/
theorem Coherent.delivers (h : Coherent w) (monId : Nat) (value : DataValue V) :
    Delivered (.data value) (w.receivers monId) w (responseHandler monId value w) := by
  unfold responseHandler World.receivers
  cases hl : w.subscriptionMap.lookup monId with
  | none =>
    rw [h.served_none hl]
    exact pushAll_delivered _ [] w
  | some p =>
    obtain ⟨item, hitem, hserved⟩ := h.served_eq hl
    rw [hserved]
    simp only [hitem]
    split
    · have hd := pushAll_delivered (.data value) item.accessors { w with
        items := w.items.mapSlots fun q item =>
          if q = p then { item with hasException := false } else item }
      exact ⟨hd.history, hd.newest, hd.others, hd.fault⟩
    · exact pushAll_delivered _ [] w

theorem Bookkept.routed (h : Bookkept True w) : Routed w := by
  have hc : Coherent w := h.2 trivial
  refine ⟨?_, hc.complete, hc.delivers⟩
  intro monId p hl
  obtain ⟨i, item, rfl, hitem, hid, hm⟩ := hc.sound monId p hl
  obtain ⟨q, hq, hnode, hqid, -⟩ := h.1.registered item (List.mem_of_getElem? hitem) hm
  refine ⟨item, by rw [SlotDeque.get?_slot, hitem], hid, ?_⟩
  exact hnode ▸ hid ▸ hqid ▸ handedOut_of_registration hq

/-! ## Erasures -/

/-- **An erasure keeps the addresses exactly when it is safe.** -/
theorem removeItem_coherent_iff (h : Bookkept True w) {i : Nat} {item : MonitorItem}
    (hitem : w.items.elems[i]? = some item) :
    Coherent { w with
        subscriptionMap := w.subscriptionMap.erase item.id
        items := w.items.erase i } ↔ w.SafeRemoval i item := by
  refine ⟨fun hc j _ other hj hji hm => ?_, fun hs => (h.removeItem hitem fun _ => hs).2 trivial⟩
  have hslot := hc.complete (SlotDeque.posAfter i j) other
    ((w.items.getElem?_erase_posAfter hji).trans hj) hm
  have hid : other.id ≠ item.id := by
    intro he
    rw [he, AList.lookup_erase] at hslot
    cases hslot
  refine ⟨fun hmoved => w.items.slot_erase_of_moved hmoved ?_, hid⟩
  rw [AList.lookup_erase_ne hid, (h.2 trivial).complete j other hj hm, Option.some_inj] at hslot
  exact hslot.symm

/-! ## Every run -/

/-- The condition under which the routing is kept: subscriptions are created in clean states,
and items are removed safely. -/
def Call.KeepsRouting (w : World V) (c : Call V) : Prop := c.Clean w ∧ c.SafeRemoval w

instance (w : World V) (c : Call V) : Decidable (c.KeepsRouting w) := by
  unfold Call.KeepsRouting; infer_instance

theorem reach_bookkept (h : (calls V).Reach Call.KeepsRouting w) : Bookkept True w := by
  refine h.invariant (fun _ => Bookkept.fresh) ?_
  rintro w c w' hw ⟨hclean, hsafe⟩ ⟨-, rfl, hL⟩
  exact hw.exec c hclean (fun _ => hsafe) hL

/-- **Routing.** In every state between the calls of a run that creates subscriptions in clean
states and removes items safely, the addresses denote the monitored items, and every
notification goes to the accessors it is for. -/
theorem reach_routed (h : (calls V).Reach Call.KeepsRouting w) : Routed w :=
  (reach_bookkept h).routed

/-- Three registers, and the removal of the last one. -/
def removeLast : List (Call Nat) :=
  [.subscribe {} "a" ⟨1, .string "a"⟩ 10, .subscribe {} "b" ⟨1, .string "b"⟩ 11,
    .subscribe {} "c" ⟨1, .string "c"⟩ 12, .activate {}, .unsubscribe {} "c" 12]

theorem reach_routed_removeLast : Routed (Call.run {} removeLast) :=
  reach_routed (reach_run removeLast (.init World.fresh_default) (by decide))

/-- Three registers, and the removal of the middle one. -/
def removeMiddle : List (Call Nat) :=
  [.subscribe {} "a" ⟨1, .string "a"⟩ 10, .subscribe {} "b" ⟨1, .string "b"⟩ 11,
    .subscribe {} "c" ⟨1, .string "c"⟩ 12, .activate {}, .unsubscribe {} "b" 11]

/-- Removing the middle one of three registers destroys the slot of the last one, whose address
stays in the map. -/
theorem not_routed_removeMiddle :
    ¬ ∀ w : World Nat, (calls Nat).Reachable w → Routed w := by
  intro h
  have hr := h _ (reach_run removeMiddle (.init World.fresh_default) (by decide))
  obtain ⟨item, hitem, -⟩ := hr.targets 3 2 (by decide)
  have hgone : (Call.run {} removeMiddle).items.get? 2 = none := by decide
  rw [hgone] at hitem
  cases hitem

end OpcUaBackend
