import OpcUaBackend.Manager.Routing

/-!
# What activation covers

`activate` has two branches. With an empty `subscriptionMap` it registers every item that is
not monitored yet; otherwise it only activates the items. So it covers every item exactly when
the map is empty, or no item is without a monitored item already, or the subscription has to be
created and is created in a clean state.

## Main definitions

* `Covered`: every item is active, monitored in the current subscription and in the map
* `World.Activatable`: the condition on the state in which `activate` is called

## Main results

* `addMonitoredItems_covers`: one pass over the items covers them all
* `reach_activate_covered_iff`: when `activate` covers every item
-/

namespace OpcUaBackend

open Foundation

variable {V : Type} {w w' w'' : World V}

/-! ## Covering items -/

/-- The item is active and marked as monitored. -/
def MonitorItem.IsCovered (item : MonitorItem) : Prop :=
  item.active = true ∧ item.isMonitored = true

/-- From `w` to `w'` the items at the positions `is` become active and monitored, and those
that were so stay so. -/
structure Covers (is : List Nat) (w w' : World V) : Prop where
  lifecycle : w'.toLifecycle = w.toLifecycle
  asyncReadActive : w'.asyncReadActive = w.asyncReadActive
  items : ∀ (i : Nat) item', w'.items.elems[i]? = some item' →
    ∃ item, w.items.elems[i]? = some item ∧ (i ∈ is ∨ item.IsCovered → item'.IsCovered)

theorem Covers.trans {is js : List Nat} (h : Covers is w w') (h' : Covers js w' w'') :
    Covers (is ++ js) w w'' := by
  refine ⟨h'.lifecycle.trans h.lifecycle, h'.asyncReadActive.trans h.asyncReadActive, ?_⟩
  intro i item'' hi
  obtain ⟨item', hi', hcov'⟩ := h'.items i item'' hi
  obtain ⟨item, hitem, hcov⟩ := h.items i item' hi'
  refine ⟨item, hitem, fun hor => hcov' ?_⟩
  rcases hor with hmem | hitem
  · rcases List.mem_append.mp hmem with hm | hm
    · exact .inr (hcov (.inl hm))
    · exact .inl hm
  · exact .inr (hcov (.inr hitem))

theorem activateItem_items (i : Nat) (w : World V) :
    (activateItem i w).items = w.items.modify i fun item => { item with active := true } := by
  unfold activateItem
  split
  · rename_i hnone
    simp only [SlotDeque.modify]
    rw [List.modify_eq_self (by simpa using hnone)]
  · rfl

theorem activateIfAsync_covers (i : Nat) (hasync : w.asyncReadActive = true) :
    Covers [] w (activateIfAsync i w) ∧
      ∀ item, (activateIfAsync i w).items.elems[i]? = some item → item.active = true := by
  have hw : activateIfAsync i w = activateItem i w := if_pos hasync
  rw [hw]
  refine ⟨⟨?_, ?_, ?_⟩, ?_⟩
  · unfold activateItem
    split <;> rfl
  · unfold activateItem
    split <;> rfl
  · intro j item' hj
    rw [activateItem_items, SlotDeque.elems_modify, List.getElem?_modify] at hj
    obtain ⟨item, hitem, rfl⟩ := Option.map_eq_some_iff.mp hj
    refine ⟨item, hitem, fun hor => ?_⟩
    have hcov := hor.resolve_left List.not_mem_nil
    split
    · exact ⟨rfl, hcov.2⟩
    · exact hcov
  · intro item hitem
    rw [activateItem_items, SlotDeque.elems_modify, List.getElem?_modify] at hitem
    obtain ⟨item₀, -, rfl⟩ := Option.map_eq_some_iff.mp hitem
    simp

/-- With asynchronous reading active, the loop body of `addMonitoredItems` covers its item. -/
theorem addMonitoredItem_covers {reply : Reply V MonitoredItemCreateResult} (i : Nat)
    (h : WellFormed w) (hasync : w.asyncReadActive = true)
    (hgood : reply.result.statusCode.isGood = true)
    (hcalm : ∀ c ∈ reply.callbacks, c.isCalm = true) :
    Covers [i] w (addMonitoredItem reply i w) := by
  obtain ⟨hcov, hactive⟩ := activateIfAsync_covers i hasync
  have hwf : WellFormed (activateIfAsync i w) :=
    h.relabel (label_of_key (activateIfAsync_frame w i).key)
  rcases addMonitoredItem_cases w reply i with
    ⟨he, hmon⟩ | ⟨-, item, hmem, hnone⟩ | ⟨item, first, hitem, -, -, he⟩
  · have hrest : Covers [i] (activateIfAsync i w) (activateIfAsync i w) := by
      refine ⟨rfl, rfl, fun j item' hj => ⟨item', hj, ?_⟩⟩
      rintro (hmem | hcov')
      · obtain rfl := List.mem_singleton.mp hmem
        exact ⟨hactive item' hj, hmon item' hj⟩
      · exact hcov'
    exact he ▸ hcov.trans hrest
  · simpa [hnone] using hwf.accessors item hmem
  · rw [he]
    refine Covers.trans hcov ?_
    generalize activateIfAsync i w = w₀ at hitem hactive
    have hc := libraryCall_calm hcalm
      (.createDataChange (monitoringRequest w₀ item first) reply.result) w₀
    generalize libraryCall (.createDataChange (monitoringRequest w₀ item first) reply.result)
      reply.callbacks w₀ = w₁ at hc
    unfold monitoringAnswered
    rw [if_pos hgood]
    refine ⟨hc.lifecycle, hc.asyncReadActive, fun j item' hj => ?_⟩
    rw [SlotDeque.elems_modify, List.getElem?_modify] at hj
    obtain ⟨item₁, hitem₁, rfl⟩ := Option.map_eq_some_iff.mp hj
    obtain ⟨item₀, hitem₀, hcalm₀⟩ := SlotDeque.exists_getElem?_of_map_eq hc.items hitem₁
    obtain ⟨hact, hmon⟩ := MonitorItem.calm_inj hcalm₀
    refine ⟨item₀, hitem₀, fun hor => ?_⟩
    by_cases hij : i = j
    · subst hij
      simp only [if_true]
      exact ⟨hact.trans (hactive item₀ hitem₀), rfl⟩
    · simp only [hij, if_false]
      obtain ⟨ha, hm⟩ := hor.resolve_left fun hmem => hij (List.mem_singleton.mp hmem).symm
      exact ⟨hact.trans ha, hmon.trans hm⟩

/-- With asynchronous reading active, one pass over the items covers them all. -/
theorem addMonitoredItems_covers {replies : Nat → Reply V MonitoredItemCreateResult}
    {routed : Prop} (h : Bookkept routed w) (hasync : w.asyncReadActive = true)
    (hgood : ∀ i, (replies i).result.statusCode.isGood = true)
    (hcalm : ∀ i, ∀ c ∈ (replies i).callbacks, c.isCalm = true)
    (hL : LibraryContract (addMonitoredItems replies w).history) :
    Covers (List.range w.items.size) w (addMonitoredItems replies w) := by
  unfold addMonitoredItems at hL ⊢
  generalize List.range w.items.size = is at hL ⊢
  induction is generalizing w with
  | nil => exact ⟨rfl, rfl, fun i item' hi => ⟨item', hi, fun hor => hor.resolve_left (by simp)⟩⟩
  | cons i is ih =>
    have hstep := addMonitoredItem_covers i h.1.items hasync (hgood i) (hcalm i)
    have hbook := h.addMonitoredItem (replies i) i
      (hL.of_suffix (foldl_addMonitoredItem_history _ _ is).suffix)
    exact hstep.trans (ih hbook (hstep.asyncReadActive.trans hasync) hL)

/-! ## What `activate` achieves -/

/-- Every item is active, is marked as monitored for a monitored item created in the current
subscription, and is in the map. -/
def Covered (w : World V) : Prop :=
  ∀ (i : Nat) item, w.items.elems[i]? = some item →
    item.active = true ∧ item.isMonitored = true ∧
      (∃ q, registration w.history item.browseName = some q ∧ q.1.node = item.node ∧
        q.1.subscriptionId = w.subscriptionID ∧ q.2.monitoredItemId = item.id) ∧
      w.subscriptionMap.lookup item.id = some (w.items.slot i)

/-- The condition on the state in which `activate` is called: with an active subscription, the
map is empty or every item is monitored already; without one, the creation of the subscription
finds a clean state. -/
def World.Activatable (w : World V) : Prop :=
  if w.subscriptionActive then
    w.subscriptionMap.entries = [] ∨ ∀ item ∈ w.items.elems, item.isMonitored = true
  else w.Clean

instance (w : World V) : Decidable w.Activatable := by
  unfold World.Activatable; infer_instance

/-- The library answers every request GOOD, and reports no loss of the connection, inactivity or
deletion inside the requests that register items. -/
structure Replies.Good (r : Replies V) : Prop where
  subscriptionsDelete : r.subscriptionsDelete.result.isGood = true
  subscriptionsCreate : r.subscriptionsCreate.result.serviceResult.isGood = true
  createDataChange : ∀ i, (r.createDataChange i).result.statusCode.isGood = true
  calm : ∀ i, ∀ c ∈ (r.createDataChange i).callbacks, c.isCalm = true

/-- A coherent state whose items are all active and monitored, with an active subscription. -/
theorem Bookkept.covered (h : Bookkept True w) (hactive : w.subscriptionActive = true)
    (hitems : ∀ (i : Nat) item, w.items.elems[i]? = some item → item.IsCovered) :
    Covered w := by
  intro i item hitem
  obtain ⟨hact, hm⟩ := hitems i item hitem
  have hmem := List.mem_of_getElem? hitem
  have hid : w.subscriptionID ≠ 0 :=
    (h.1.active hactive).resolve_right fun hu => by simp [hu item hmem] at hm
  obtain ⟨q, hq, hnode, hqid, hsub⟩ := h.1.registered item hmem hm
  rw [h.1.subscriptionID hid, Option.some_inj] at hsub
  exact ⟨hact, hm, ⟨q, hq, hnode, hsub.symm, hqid⟩, (h.2 trivial).complete i item hitem hm⟩

theorem Bookkept.activateItems_covered (h : Bookkept True w)
    (hactive : w.subscriptionActive = true)
    (hm : ∀ item ∈ w.items.elems, item.isMonitored = true) : Covered (activateItems w) := by
  refine (h.frame (activateItems_frame w)).covered hactive fun i item hitem => ?_
  simp only [activateItems, SlotDeque.elems_map, List.getElem?_map, Option.map_eq_some_iff]
    at hitem
  obtain ⟨item₀, hitem₀, rfl⟩ := hitem
  exact ⟨rfl, hm item₀ (List.mem_of_getElem? hitem₀)⟩

/-- With an empty map the items are registered, all of them. -/
theorem Bookkept.activateSubscribed_covered {r : Replies V} (h : Bookkept True w)
    (hr : r.Good) (hactive : w.subscriptionActive = true)
    (hmap : w.subscriptionMap.entries = [])
    (hL : LibraryContract (OpcUaBackend.activateSubscribed r w).history) :
    Covered (OpcUaBackend.activateSubscribed r w) := by
  have hset : Bookkept True { w with asyncReadActive := true } := h.of_flags rfl rfl rfl rfl id
  have hbook := h.activateSubscribed r hL
  unfold OpcUaBackend.activateSubscribed at hbook hL ⊢
  simp only at hbook hL ⊢
  by_cases hsize : 0 < w.items.size
  · rw [if_pos ⟨hsize, hmap⟩] at hbook hL ⊢
    have hcov := addMonitoredItems_covers hset rfl hr.createDataChange hr.calm hL
    refine hbook.covered ?_ fun i item hitem => ?_
    · rw [hcov.lifecycle]
      exact hactive
    · obtain ⟨item₀, hitem₀, himp⟩ := hcov.items i item hitem
      exact himp (.inl (List.mem_range.mpr (List.getElem?_eq_some_iff.mp hitem₀).1))
  · rw [if_neg fun hand => hsize hand.1]
    refine hset.activateItems_covered hactive fun item hmem => ?_
    exact absurd (List.length_pos_of_mem hmem) hsize

/-- With addresses in the map nothing is registered. -/
theorem activateSubscribed_of_map {r : Replies V} (hmap : w.subscriptionMap.entries ≠ []) :
    activateSubscribed r w = activateItems { w with asyncReadActive := true } :=
  if_neg fun hand => hmap hand.2

theorem Covered.monitored_of_activateItems (h : Covered (activateItems w)) {item : MonitorItem}
    (hmem : item ∈ w.items.elems) : item.isMonitored = true ∧
      ∃ q, registration w.history item.browseName = some q := by
  obtain ⟨i, hi⟩ := List.mem_iff_getElem?.mp hmem
  have hi' : (activateItems w).items.elems[i]? = some { item with active := true } := by
    simp [activateItems, hi]
  obtain ⟨-, hm, ⟨q, hq, -⟩, -⟩ := h i _ hi'
  rw [(activateItems_frame w).registration] at hq
  exact ⟨hm, q, hq⟩

/-- What an answered request for a subscription returns. -/
theorem requestSubscription_returned {reply : Reply V CreateSubscriptionResponse}
    (he : requestSubscription reply w = .returned w') :
    reply.result.serviceResult.isGood = true ∧
      w' = { libraryCall (.subscriptionsCreate w.publishingInterval reply.result) reply.callbacks w
        with
        subscriptionID := reply.result.subscriptionId
        publishingInterval := reply.result.revisedPublishingInterval
        subscriptionActive := true } := by
  unfold requestSubscription at he
  simp only at he
  split at he
  · rename_i hgood
    exact ⟨hgood, (Result.returned.inj he).symm⟩
  · cases he

theorem entries_eq_nil_of_lookup (h : ∀ m, w.subscriptionMap.lookup m = none) :
    w.subscriptionMap.entries = [] := by
  refine List.eq_nil_iff_forall_not_mem.mpr fun entry hmem => ?_
  have hsome := AList.mem_lookup_iff.mpr hmem
  rw [h] at hsome
  cases hsome

/-- In a clean state the new subscription starts with an empty map. -/
theorem createSubscription_clean {r : Replies V} (h : Bookkept True w) (hc : w.Clean)
    (he : createSubscription r w = .returned w') :
    Bookkept True w' ∧ w'.subscriptionActive = true ∧ w'.subscriptionMap.entries = [] := by
  have hbook := h.createSubscription r hc
  rw [he] at hbook
  have hu := cleanUpSubscription_unmonitored r.subscriptionsDelete hc
  obtain ⟨-, rfl⟩ := requestSubscription_returned he
  have hf := libraryCall_frame (cleanUpSubscription r.subscriptionsDelete w)
    (.subscriptionsCreate (cleanUpSubscription r.subscriptionsDelete w).publishingInterval
      r.subscriptionsCreate.result) r.subscriptionsCreate.callbacks
  have hu' := World.Unmonitored.frame hf hu
  exact ⟨hbook, rfl, entries_eq_nil_of_lookup ((hbook.2 trivial).lookup_of_unmonitored hu')⟩

/-- In a state that is not clean the new subscription finds addresses, and an item marked as
monitored that was not registered in it. -/
theorem createSubscription_unclean {r : Replies V} (h : Bookkept True w) (hc : ¬ w.Clean)
    (he : createSubscription r w = .returned w') :
    w'.subscriptionMap.entries ≠ [] ∧ w'.items.elems ≠ [] ∧
      ∀ browseName, registration w'.history browseName = none := by
  obtain ⟨hid, hu⟩ := not_or.mp hc
  rw [createSubscription, cleanUpSubscription, if_neg hid] at he
  obtain ⟨hgood, rfl⟩ := requestSubscription_returned he
  have hf := libraryCall_frame w (.subscriptionsCreate w.publishingInterval
    r.subscriptionsCreate.result) r.subscriptionsCreate.callbacks
  obtain ⟨item, hmem, hm⟩ : ∃ item ∈ w.items.elems, item.isMonitored = true := by
    simpa [World.Unmonitored] using hu
  obtain ⟨i, hi⟩ := List.mem_iff_getElem?.mp hmem
  refine ⟨?_, ?_, fun browseName => ?_⟩
  · intro hnil
    have hl := (h.2 trivial).complete i item hi hm
    rw [hf.subscriptionMap] at hnil
    have hentry := AList.mem_lookup_iff.mp hl
    exact absurd (hnil ▸ hentry) List.not_mem_nil
  · obtain ⟨item', hi', -⟩ := hf.symm_getElem? hi
    exact List.ne_nil_of_mem (List.mem_of_getElem? hi')
  · refine (hf.registration browseName).trans ?_
    have hstop : currentEvents (w.record (.subscriptionsCreate w.publishingInterval
        r.subscriptionsCreate.result)).history = [] := since_cons_stop _ hgood
    rw [registration, hstop, List.findSome?_nil]

/-- **What `activate` covers.** When the library answers GOOD, every item is covered exactly
when the state was activatable. -/
theorem Bookkept.activate_covered_iff {r : Replies V} (h : Bookkept True w) (hr : r.Good)
    (hact : OpcUaBackend.activate r w = .returned w') (hL : LibraryContract w'.history) :
    Covered w' ↔ w.Activatable := by
  unfold OpcUaBackend.activate OpcUaBackend.ensureSubscription at hact
  unfold World.Activatable
  by_cases hactive : w.subscriptionActive = true
  · rw [if_pos hactive] at hact ⊢
    obtain rfl := (Result.returned.inj hact).symm
    by_cases hmap : w.subscriptionMap.entries = []
    · exact iff_of_true (h.activateSubscribed_covered hr hactive hmap hL) (.inl hmap)
    · rw [activateSubscribed_of_map hmap, or_iff_right hmap]
      refine ⟨fun hc item hmem => (hc.monitored_of_activateItems hmem).1, fun hm => ?_⟩
      have hset : Bookkept True { w with asyncReadActive := true } :=
        h.of_flags rfl rfl rfl rfl id
      exact hset.activateItems_covered hactive hm
  · rw [if_neg hactive] at hact ⊢
    cases hcreate : OpcUaBackend.createSubscription r w with
    | threw message w₁ => rw [hcreate] at hact; cases hact
    | returned w₁ =>
      rw [hcreate] at hact
      obtain rfl := (Result.returned.inj hact).symm
      by_cases hclean : w.Clean
      · obtain ⟨hbook, hactive₁, hmap⟩ := createSubscription_clean h hclean hcreate
        exact iff_of_true (hbook.activateSubscribed_covered hr hactive₁ hmap hL) hclean
      · obtain ⟨hmap, hne, hnone⟩ := createSubscription_unclean h hclean hcreate
        refine iff_of_false (fun hc => ?_) hclean
        rw [activateSubscribed_of_map hmap] at hc
        obtain ⟨item, hmem⟩ := List.exists_mem_of_ne_nil _ hne
        obtain ⟨-, q, hq⟩ := hc.monitored_of_activateItems hmem
        exact absurd (hq.symm.trans (hnone _)) (by simp)

/-! ## Every history -/

/-- **Activation.** After every run that keeps the routing, an `activate` that returns with all
its calls answered GOOD covers every item exactly when the state was activatable. -/
theorem reach_activate_covered_iff {r : Replies V} (h : (calls V).Reach Call.KeepsRouting w)
    (hr : r.Good) (hact : activate r w = .returned w') (hL : LibraryContract w'.history) :
    Covered w' ↔ w.Activatable :=
  (reach_bookkept h).activate_covered_iff hr hact hL

theorem Replies.good_default : Replies.Good ({} : Replies V) :=
  ⟨rfl, rfl, fun _ => rfl, fun _ _ hc => absurd hc List.not_mem_nil⟩

/-- The answers to a connection that comes up. -/
def connecting : Replies Nat :=
  { connect := { result := .good, callbacks := [.state .open .activated] } }

/-- The answers to a connection that is closed after the client thread ended. -/
def closing : Replies Nat :=
  { clientSteps := List.replicate 4 ({ result := .good }, { result := .good })
    disconnect := { result := .good, callbacks := [.state .closed .closed] } }

/-- A register is read asynchronously, the device is closed and opened again. -/
def reopened : List (Call Nat) :=
  [.constructAccessor {} "a" ⟨1, .string "a"⟩ 10, .openDevice {} {} connecting,
    .activateAsyncRead {}, .closeDevice closing, .openDevice {} {} connecting]

theorem reach_activate_covered_iff_reopened :
    Covered (activate {} (Call.run {} reopened)).world ↔ (Call.run {} reopened).Activatable :=
  reach_activate_covered_iff (reach_run reopened (.init World.fresh_default) (by decide))
    Replies.good_default rfl (by decide)

/-- An accessor made between the second opening and the activation is left without a monitored
item: the opening has registered the first item, so that the map is not empty. -/
theorem not_covered_constructed :
    ¬ ∀ (w w' : World Nat) r, (calls Nat).Reachable w → r.Good → activate r w = .returned w' →
      LibraryContract w'.history → Covered w' := by
  intro h
  have hc := h _ _ {} (reach_run
    (reopened ++ [.constructAccessor {} "b" ⟨1, .string "b"⟩ 11])
    (.init World.fresh_default) (by decide)) Replies.good_default rfl (by decide)
  obtain ⟨-, hm, -⟩ := hc 1
    { node := ⟨1, .string "b"⟩, accessors := [11], active := true, browseName := "b" } (by decide)
  cases hm

end OpcUaBackend
