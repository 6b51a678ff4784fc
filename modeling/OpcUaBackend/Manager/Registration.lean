import OpcUaBackend.Manager.Frames

/-!
# Items, monitored items and the current subscription

Two invariants of the manager. `Registered` ties the flag `isMonitored` and the id of an item
to the history: the item was registered, with that id, in the subscription created last.
`Coherent` ties `subscriptionMap` to the items: its addresses denote the monitored items.
`Bookkept` carries the first, and the second where it is asked for; every function keeps it
as long as a subscription is created in a clean state and, for the second, as long as an
erasure moves no monitored item.

## Main definitions

* `Registered`, `Coherent`, `Bookkept`: the invariants
* `World.Clean`, `World.SafeRemoval`: the conditions under which they are kept

## Main results

* `Bookkept.exec`: every call keeps the invariants
-/

namespace OpcUaBackend

open Foundation

variable {V : Type}

/-! ## Registrations in the history -/

section Registrations

variable {e : Event V} {h : List (Event V)}
  {q : MonitoredItemCreateRequest × MonitoredItemCreateResult}

theorem Event.not_opens_of_registers (he : e.registers = some q) :
    e.opensSubscription = false := by
  cases e <;> simp_all [Event.registers, Event.opensSubscription]

theorem Event.eq_of_registers (he : e.registers = some q) :
    e = .createDataChange q.1 q.2 ∧ q.2.statusCode.isGood = true := by
  cases e with
  | createDataChange request result =>
    by_cases hgood : result.statusCode.isGood = true
    · simp only [Event.registers, hgood, if_true, Option.some_inj] at he
      exact he ▸ ⟨rfl, hgood⟩
    · simp [Event.registers, hgood] at he
  | _ => simp [Event.registers] at he

theorem registration_cons_registers (he : e.registers = some q) (browseName : String) :
    registration (e :: h) browseName =
      if q.1.browseName = browseName then some q else registration h browseName := by
  simp only [registration, currentEvents, since_cons_go _ (Event.not_opens_of_registers he),
    List.findSome?_cons, Event.registersItem, he]
  by_cases hq : q.1.browseName = browseName <;> simp [Option.filter, hq]

theorem currentSubscription_cons_registers (he : e.registers = some q) :
    currentSubscription (e :: h) = currentSubscription h := by
  cases e <;> simp_all [Event.registers, currentSubscription]

theorem currentSubscription_cons_opens {n : Nat} {response : CreateSubscriptionResponse}
    (hr : response.serviceResult.isGood = true) :
    currentSubscription (.subscriptionsCreate n response :: h) = some response.subscriptionId := by
  simp [currentSubscription, hr]

/-- The id of a registration is among the ids handed out. -/
theorem mem_issuedIds_of_registration {browseName : String}
    (hq : registration h browseName = some q) : q.2.monitoredItemId ∈ issuedIds h := by
  obtain ⟨e, hmem, he⟩ := List.exists_of_findSome?_eq_some hq
  have he' : e.registers = some q := by
    simp only [Event.registersItem, Option.filter_eq_some_iff] at he
    exact he.1
  exact List.mem_map.mpr ⟨q, List.mem_filterMap.mpr ⟨e, hmem, he'⟩, rfl⟩

end Registrations

/-! ## The invariants -/

/-- No item is marked as monitored. -/
def World.Unmonitored (w : World V) : Prop :=
  ∀ item ∈ w.items.elems, item.isMonitored = false

/-- A subscription created now finds no item marked as monitored: either the clean-up of the
old subscription will unmark them, or there is none. -/
def World.Clean (w : World V) : Prop := w.subscriptionID ≠ 0 ∨ w.Unmonitored

/-- Removing the `i`-th item neither moves another monitored item nor carries its id. -/
def World.SafeRemoval (w : World V) (i : Nat) (item : MonitorItem) : Prop :=
  ∀ j < w.items.size, ∀ other ∈ w.items.elems[j]?, j ≠ i → other.isMonitored = true →
    ¬ w.items.Moved i j ∧ other.id ≠ item.id

instance (w : World V) : Decidable w.Unmonitored := by
  unfold World.Unmonitored; infer_instance

instance (w : World V) : Decidable w.Clean := by
  unfold World.Clean; infer_instance

instance (w : World V) (i : Nat) (item : MonitorItem) : Decidable (w.SafeRemoval i item) := by
  unfold World.SafeRemoval; infer_instance

/-- Browse names are distinct, and every item has an accessor. -/
structure WellFormed (w : World V) : Prop where
  names : (w.items.elems.map (·.browseName)).Nodup
  accessors : ∀ item ∈ w.items.elems, item.accessors.isEmpty = false

/-- The items are well formed; what is marked as monitored was registered in the subscription
created last; and an active subscription has an id, or nothing is monitored. -/
structure Registered (w : World V) : Prop where
  items : WellFormed w
  registered : ∀ item ∈ w.items.elems, item.isMonitored = true →
    ∃ q, registration w.history item.browseName = some q ∧ q.1.node = item.node ∧
      q.2.monitoredItemId = item.id ∧
      currentSubscription w.history = some q.1.subscriptionId
  subscriptionID : w.subscriptionID ≠ 0 →
    currentSubscription w.history = some w.subscriptionID
  active : w.subscriptionActive = true → w.Clean

/-- The addresses in `subscriptionMap` are those of the monitored items, under their ids. -/
structure Coherent (w : World V) : Prop where
  sound : ∀ m p, w.subscriptionMap.lookup m = some p →
    ∃ i item, p = w.items.slot i ∧ w.items.elems[i]? = some item ∧ item.id = m ∧
      item.isMonitored = true
  complete : ∀ i item, w.items.elems[i]? = some item → item.isMonitored = true →
    w.subscriptionMap.lookup item.id = some (w.items.slot i)

/-- `Registered`, and `Coherent` where the routing is asked for. -/
def Bookkept (routed : Prop) (w : World V) : Prop := Registered w ∧ (routed → Coherent w)

variable {routed : Prop} {w w' : World V}

/-! ### Steps that change neither registrations nor addresses -/

/-- What makes an item well formed. -/
def MonitorItem.label (item : MonitorItem) : String × Bool :=
  (item.browseName, item.accessors.isEmpty)

/-- The part of an item that the invariants speak of. -/
def MonitorItem.key (item : MonitorItem) : UA_NodeId × Nat × Bool × String × Bool :=
  (item.node, item.id, item.isMonitored, item.label)

theorem MonitorItem.key_inj {item item' : MonitorItem} :
    item.key = item'.key ↔ item.node = item'.node ∧ item.id = item'.id ∧
      item.isMonitored = item'.isMonitored ∧ item.browseName = item'.browseName ∧
      item.accessors.isEmpty = item'.accessors.isEmpty := by
  simp [key, label]

theorem WellFormed.relabel (h : WellFormed w) (hl : w'.items.elems.map MonitorItem.label
    = w.items.elems.map MonitorItem.label) : WellFormed w' := by
  constructor
  · have hnames := congrArg (List.map Prod.fst) hl
    simp only [List.map_map, Function.comp_def, MonitorItem.label] at hnames
    exact hnames ▸ h.names
  · intro item' hmem
    obtain ⟨i, hi⟩ := List.mem_iff_getElem?.mp hmem
    obtain ⟨item, hitem, hk⟩ := SlotDeque.exists_getElem?_of_map_eq hl hi
    exact (congrArg Prod.snd hk).trans (h.accessors item (List.mem_of_getElem? hitem))

theorem label_of_key (hkey : w'.items.elems.map MonitorItem.key
    = w.items.elems.map MonitorItem.key) :
    w'.items.elems.map MonitorItem.label = w.items.elems.map MonitorItem.label := by
  have hl := congrArg (List.map fun k => k.2.2.2) hkey
  simp only [List.map_map] at hl
  exact hl

theorem World.Unmonitored.rekey (hkey : w'.items.elems.map MonitorItem.key
    = w.items.elems.map MonitorItem.key) (h : w.Unmonitored) : w'.Unmonitored := by
  intro item' hmem
  obtain ⟨i, hi⟩ := List.mem_iff_getElem?.mp hmem
  obtain ⟨item, hitem, hk⟩ := SlotDeque.exists_getElem?_of_map_eq hkey hi
  exact (MonitorItem.key_inj.mp hk).2.2.1.trans (h item (List.mem_of_getElem? hitem))

/-- A step that keeps the keys and slots of the items, the addresses and the registrations. -/
theorem Bookkept.rekey (h : Bookkept routed w) (hbase : w'.items.base = w.items.base)
    (hkey : w'.items.elems.map MonitorItem.key = w.items.elems.map MonitorItem.key)
    (hmap : w'.subscriptionMap = w.subscriptionMap)
    (hreg : ∀ name, registration w'.history name = registration w.history name)
    (hcur : currentSubscription w'.history = currentSubscription w.history)
    (hid : w'.subscriptionID = w.subscriptionID ∨ w'.subscriptionID = 0)
    (hactive : w'.subscriptionActive = true →
      w.subscriptionActive = true ∧ w'.subscriptionID = w.subscriptionID) :
    Bookkept routed w' := by
  have hslot : ∀ i, w'.items.slot i = w.items.slot i := fun i => by simp [SlotDeque.slot, hbase]
  refine ⟨⟨?_, ?_, ?_, ?_⟩, fun hr => ⟨?_, ?_⟩⟩
  · exact h.1.items.relabel (label_of_key hkey)
  · intro item' hmem hm
    obtain ⟨i, hi⟩ := List.mem_iff_getElem?.mp hmem
    obtain ⟨item, hitem, hk⟩ := SlotDeque.exists_getElem?_of_map_eq hkey hi
    obtain ⟨hnode, hitemId, hmon, hname, -⟩ := MonitorItem.key_inj.mp hk
    rw [hnode, hitemId, hname, hreg, hcur]
    exact h.1.registered item (List.mem_of_getElem? hitem) (hmon.symm.trans hm)
  · intro hne
    rcases hid with he | he
    · rw [he, hcur]
      exact h.1.subscriptionID (he ▸ hne)
    · exact absurd he hne
  · intro ha
    obtain ⟨ha', he⟩ := hactive ha
    exact (h.1.active ha').imp (fun hne => he ▸ hne) (.rekey hkey)
  · intro m p hl
    rw [hmap] at hl
    obtain ⟨i, item, rfl, hitem, hitemId, hm⟩ := (h.2 hr).sound m p hl
    obtain ⟨item', hitem', hk⟩ := SlotDeque.exists_getElem?_of_map_eq hkey.symm hitem
    obtain ⟨-, hitemId', hmon, -⟩ := MonitorItem.key_inj.mp hk
    exact ⟨i, item', (hslot i).symm, hitem', hitemId'.symm.trans hitemId, hmon.symm.trans hm⟩
  · intro i item' hitem' hm
    obtain ⟨item, hitem, hk⟩ := SlotDeque.exists_getElem?_of_map_eq hkey hitem'
    obtain ⟨-, hitemId, hmon, -⟩ := MonitorItem.key_inj.mp hk
    rw [hmap, hslot, hitemId]
    exact (h.2 hr).complete i item hitem (hmon.symm.trans hm)

theorem Frame.key (f : Frame w w') :
    w'.items.elems.map MonitorItem.key = w.items.elems.map MonitorItem.key := by
  have hk := congrArg (List.map MonitorItem.key) f.core
  simp only [List.map_map] at hk
  exact hk

theorem World.Unmonitored.frame (f : Frame w w') (h : w.Unmonitored) : w'.Unmonitored :=
  h.rekey f.key

theorem Bookkept.frame (f : Frame w w') (h : Bookkept routed w) : Bookkept routed w' :=
  h.rekey f.base f.key f.subscriptionMap f.registration f.currentSubscription f.subscriptionID
    f.active

/-- A change of what the invariants do not speak of. -/
theorem Bookkept.of_flags (h : Bookkept routed w) (hitems : w'.items = w.items)
    (hmap : w'.subscriptionMap = w.subscriptionMap) (hhistory : w'.history = w.history)
    (hid : w'.subscriptionID = w.subscriptionID)
    (hactive : w'.subscriptionActive = true → w.subscriptionActive = true) :
    Bookkept routed w' :=
  h.rekey (by rw [hitems]) (by rw [hitems]) hmap (by simp [hhistory]) (by rw [hhistory])
    (.inl hid) fun ha => ⟨hactive ha, hid⟩

/-- Recording a call that neither creates a subscription nor registers an item. -/
theorem Bookkept.record {e : Event V} (he : e.Quiet) (h : Bookkept routed w) :
    Bookkept routed (w.record e) := by
  have hquiet : ∀ e' ∈ [e], e'.Quiet := by simpa using he
  exact h.rekey rfl rfl rfl (registration_quiet hquiet) (currentSubscription_quiet hquiet)
    (.inl rfl) fun ha => ⟨ha, rfl⟩

theorem Bookkept.libraryCall {e : Event V} (he : e.Quiet) (cs : List (Callback V))
    (h : Bookkept routed w) : Bookkept routed (libraryCall e cs w) :=
  (h.record he).frame (libraryCall_frame w e cs)

/-! ### Unmonitored states -/

theorem Registered.of_unmonitored (hn : WellFormed w) (hu : w.Unmonitored)
    (hid : w.subscriptionID ≠ 0 → currentSubscription w.history = some w.subscriptionID) :
    Registered w :=
  ⟨hn, fun item hitem hm => absurd hm (by simp [hu item hitem]), hid, fun _ => .inr hu⟩

theorem Coherent.of_unmonitored (hu : w.Unmonitored)
    (hmap : ∀ m, w.subscriptionMap.lookup m = none) : Coherent w :=
  ⟨fun m p hl => by simp [hmap m] at hl,
    fun i item hitem hm => by simp [hu item (List.mem_of_getElem? hitem)] at hm⟩

theorem Coherent.lookup_of_unmonitored (h : Coherent w) (hu : w.Unmonitored) (m : Nat) :
    w.subscriptionMap.lookup m = none := by
  cases hl : w.subscriptionMap.lookup m with
  | none => rfl
  | some p =>
    obtain ⟨i, item, -, hitem, -, hm⟩ := h.sound m p hl
    simp [hu item (List.mem_of_getElem? hitem)] at hm

theorem resetMonitoredItems_unmonitored (w : World V) : (resetMonitoredItems w).Unmonitored := by
  intro item hitem
  simp only [resetMonitoredItems, SlotDeque.elems_map, List.mem_map] at hitem
  obtain ⟨item', -, rfl⟩ := hitem
  rfl

theorem WellFormed.resetMonitoredItems (h : WellFormed w) :
    WellFormed (resetMonitoredItems w) := by
  refine h.relabel ?_
  simp [OpcUaBackend.resetMonitoredItems, MonitorItem.label]

theorem resetMonitoredItems_coherent (w : World V) : Coherent (resetMonitoredItems w) :=
  .of_unmonitored (resetMonitoredItems_unmonitored w) fun m => AList.lookup_empty m

theorem Bookkept.resetMonitoredItems (h : Bookkept routed w) :
    Bookkept routed (resetMonitoredItems w) := by
  exact ⟨.of_unmonitored h.1.items.resetMonitoredItems (resetMonitoredItems_unmonitored w)
    h.1.subscriptionID, fun _ => resetMonitoredItems_coherent w⟩

/-! ### The subscription -/

theorem removeSubscription_unmonitored (reply : Reply V UA_StatusCode) (w : World V) :
    (removeSubscription reply w).Unmonitored :=
  resetMonitoredItems_unmonitored _

theorem Bookkept.removeSubscription (reply : Reply V UA_StatusCode) (h : Bookkept routed w) :
    Bookkept routed (removeSubscription reply w) := by
  have hf := libraryCall_frame w (.subscriptionsDelete w.subscriptionID reply.result) reply.callbacks
  have hitems : WellFormed { OpcUaBackend.libraryCall
      (.subscriptionsDelete w.subscriptionID reply.result) reply.callbacks w with
      subscriptionID := 0 } :=
    h.1.items.relabel (label_of_key hf.key)
  exact ⟨.of_unmonitored hitems.resetMonitoredItems
    (removeSubscription_unmonitored reply w) fun hne => absurd rfl hne,
    fun _ => resetMonitoredItems_coherent _⟩

theorem Bookkept.cleanUpSubscription (reply : Reply V UA_StatusCode) (h : Bookkept routed w) :
    Bookkept routed (cleanUpSubscription reply w) := by
  unfold OpcUaBackend.cleanUpSubscription
  split
  · exact h.removeSubscription reply
  · exact h

theorem cleanUpSubscription_unmonitored (reply : Reply V UA_StatusCode) (hc : w.Clean) :
    (cleanUpSubscription reply w).Unmonitored := by
  unfold OpcUaBackend.cleanUpSubscription
  split
  · exact removeSubscription_unmonitored reply w
  · rename_i hid
    exact hc.resolve_left hid

theorem Bookkept.requestSubscription (reply : Reply V CreateSubscriptionResponse)
    (h : Bookkept routed w) (hu : w.Unmonitored) :
    Bookkept routed (requestSubscription reply w).world := by
  have hf := libraryCall_frame w (.subscriptionsCreate w.publishingInterval reply.result)
    reply.callbacks
  have hu₂ := World.Unmonitored.frame hf hu
  unfold OpcUaBackend.requestSubscription
  by_cases hgood : reply.result.serviceResult.isGood = true
  · simp only [hgood, if_true, Result.world]
    refine ⟨.of_unmonitored ?_ hu₂ fun _ => ?_, fun hr => .of_unmonitored hu₂ fun m => ?_⟩
    · exact (h.1.items.relabel (label_of_key hf.key)).relabel rfl
    · exact hf.currentSubscription.trans (currentSubscription_cons_opens hgood)
    · exact hf.subscriptionMap.symm ▸ (h.2 hr).lookup_of_unmonitored hu m
  · simp only [hgood, Bool.false_eq_true, if_false, Result.world]
    refine h.libraryCall ⟨?_, rfl⟩ _
    simpa [Event.opensSubscription] using hgood

theorem Bookkept.createSubscription (r : Replies V) (h : Bookkept routed w) (hc : w.Clean) :
    Bookkept routed (createSubscription r w).world :=
  (h.cleanUpSubscription _).requestSubscription _ (cleanUpSubscription_unmonitored _ hc)

theorem Bookkept.ensureSubscription (r : Replies V) (h : Bookkept routed w)
    (hc : w.subscriptionActive = false → w.Clean) :
    Bookkept routed (ensureSubscription r w).world := by
  unfold OpcUaBackend.ensureSubscription
  split
  · exact h
  · rename_i hactive
    exact h.createSubscription r (hc (by simpa using hactive))

/-! ### Registering items -/

/-- The position of an item is determined by its browse name. -/
theorem index_inj {items : List MonitorItem} (hn : (items.map (·.browseName)).Nodup) {i j : Nat}
    {item item' : MonitorItem} (hi : items[i]? = some item) (hj : items[j]? = some item')
    (hname : item.browseName = item'.browseName) : i = j := by
  have hlt : i < (items.map (·.browseName)).length := by
    simpa using (List.getElem?_eq_some_iff.mp hi).1
  refine (List.getElem?_inj hlt hn).mp ?_
  simp [hi, hj, hname]

section Answered

variable {i : Nat} {item : MonitorItem} {request : MonitoredItemCreateRequest}
  {result : MonitoredItemCreateResult} {cs : List (Callback V)}

/-- The item at a position after a registration: the registered one, or one from before. -/
theorem monitor_cases {w₁ : World V} (hf : Frame w w₁) (hitem : w.items.elems[i]? = some item)
    {j : Nat} {item' : MonitorItem} {id : Nat}
    (hj : (w₁.items.modify i (MonitorItem.monitor id)).elems[j]? = some item') :
    (j = i ∧ item'.node = item.node ∧ item'.browseName = item.browseName ∧ item'.id = id) ∨
      (j ≠ i ∧ ∃ other, w.items.elems[j]? = some other ∧ item'.core = other.core) := by
  by_cases hji : j = i
  · subst hji
    obtain ⟨item₁, hitem₁, hcore⟩ := hf.symm_getElem? hitem
    obtain ⟨hnode, -, -, -, hname⟩ := MonitorItem.core_inj.mp hcore
    rw [SlotDeque.getElem?_modify_self _ _ hitem₁, Option.some_inj] at hj
    subst hj
    exact .inl ⟨rfl, hnode, hname, rfl⟩
  · rw [SlotDeque.getElem?_modify_of_ne _ _ hji] at hj
    exact .inr ⟨hji, hf.getElem? hj⟩

/-- The id of a monitored item was handed out in the current subscription. -/
theorem Registered.id_mem_issuedIds (h : Registered w) (hitem : item ∈ w.items.elems)
    (hm : item.isMonitored = true) : item.id ∈ issuedIds w.history := by
  obtain ⟨q, hq, -, hid, -⟩ := h.registered item hitem hm
  exact hid ▸ mem_issuedIds_of_registration hq

theorem Registered.monitoringAnswered_good (h : Registered w)
    (hitem : w.items.elems[i]? = some item) (hnode : request.node = item.node)
    (hname : request.browseName = item.browseName)
    (hsub : request.subscriptionId = w.subscriptionID) (hne : request.subscriptionId ≠ 0)
    (hgood : result.statusCode.isGood = true) (browseName : String) :
    Registered (monitoringAnswered i browseName result
      (libraryCall (.createDataChange request result) cs w)) := by
  have hreg : (Event.createDataChange request result : Event V).registers
      = some (request, result) := by simp [Event.registers, hgood]
  have hf := libraryCall_frame w (.createDataChange request result) cs
  generalize libraryCall (.createDataChange request result) cs w = w₁ at hf
  -- the callbacks inside the request leave the current subscription alone
  have hold : currentSubscription w.history = some w.subscriptionID :=
    h.subscriptionID (hsub ▸ hne)
  have hcur : currentSubscription w₁.history = some request.subscriptionId := by
    rw [hf.currentSubscription, hsub]
    exact (currentSubscription_cons_registers hreg).trans hold
  -- the answer is the last registration of its name, and of no other
  have hlatest : ∀ name, registration w₁.history name
      = if request.browseName = name then some (request, result)
        else registration w.history name := fun name =>
    (hf.registration name).trans (registration_cons_registers hreg name)
  unfold monitoringAnswered
  rw [if_pos hgood]
  refine ⟨?items, ?registered, ?subscriptionID, ?active⟩
  case items =>
    have hlabel := SlotDeque.map_elems_modify w₁.items i (g := MonitorItem.label)
      (f := MonitorItem.monitor result.monitoredItemId) fun _ => rfl
    exact h.items.relabel (hlabel.trans (label_of_key hf.key))
  case registered =>
    intro item' hmem hm
    obtain ⟨j, hj⟩ := List.mem_iff_getElem?.mp hmem
    rcases monitor_cases hf hitem hj with ⟨rfl, hn, hbn, hid⟩ | ⟨hji, other, ho, hcore⟩
    · refine ⟨(request, result), ?_, hnode.trans hn.symm, hid.symm, hcur⟩
      rw [hlatest, if_pos (hname.trans hbn.symm)]
    · obtain ⟨hn, -, hid, hmon, hbn⟩ := MonitorItem.core_inj.mp hcore
      obtain ⟨q, hq, hqn, hqid, hqs⟩ :=
        h.registered other (List.mem_of_getElem? ho) (hmon.symm.trans hm)
      have hne' : request.browseName ≠ item'.browseName := fun he =>
        hji (index_inj h.items.names hitem ho (hname.symm.trans (he.trans hbn))).symm
      refine ⟨q, ?_, hqn.trans hn.symm, hqid.trans hid.symm, ?_⟩
      · rw [hlatest, if_neg hne', hbn, hq]
      · rw [hcur, hsub, ← hold, hqs]
  case subscriptionID =>
    intro hid
    rcases hf.subscriptionID with he | he
    · exact hcur.trans (congrArg some (hsub.trans he.symm))
    · exact absurd he hid
  case active =>
    intro hactive
    exact .inl ((hf.active hactive).2 ▸ hsub ▸ hne)

/-- A fresh id and the slot of its item extend the addresses. -/
theorem Coherent.monitoringAnswered_good (h : Coherent w) (hr : Registered w)
    (hitem : w.items.elems[i]? = some item) (hnew : item.isMonitored = false)
    (hgood : result.statusCode.isGood = true)
    (hfresh : result.monitoredItemId ∉ issuedIds w.history) (browseName : String) :
    Coherent (monitoringAnswered i browseName result
      (libraryCall (.createDataChange request result) cs w)) := by
  have hf := libraryCall_frame w (.createDataChange request result) cs
  generalize libraryCall (.createDataChange request result) cs w = w₁ at hf
  have hother : ∀ {other : MonitorItem}, other ∈ w.items.elems → other.isMonitored = true →
      other.id ≠ result.monitoredItemId := fun hmem hm he =>
    hfresh (he ▸ hr.id_mem_issuedIds hmem hm)
  unfold monitoringAnswered
  rw [if_pos hgood]
  refine ⟨?sound, ?complete⟩
  case sound =>
    intro m p hl
    simp only [SlotDeque.slot_modify]
    by_cases hm : m = result.monitoredItemId
    · subst hm
      rw [AList.lookup_insert, Option.some_inj] at hl
      obtain ⟨item₁, hitem₁, -⟩ := hf.symm_getElem? hitem
      exact ⟨i, _, hl.symm, SlotDeque.getElem?_modify_self _ _ hitem₁, rfl, rfl⟩
    · rw [AList.lookup_insert_ne hm, hf.subscriptionMap] at hl
      obtain ⟨j, other, rfl, ho, hid, hmon⟩ := h.sound m p hl
      have hji : j ≠ i := by
        rintro rfl
        obtain rfl : item = other := Option.some_inj.mp (hitem.symm.trans ho)
        simp [hnew] at hmon
      obtain ⟨item', hitem', hcore⟩ := hf.symm_getElem? ho
      obtain ⟨-, -, hid', hmon', -⟩ := MonitorItem.core_inj.mp hcore
      refine ⟨j, item', (hf.slot j).symm, ?_, hid'.trans hid, hmon'.trans hmon⟩
      rwa [SlotDeque.getElem?_modify_of_ne _ _ hji]
  case complete =>
    intro j item' hj hm
    simp only [SlotDeque.slot_modify]
    rcases monitor_cases hf hitem hj with ⟨rfl, -, -, hid⟩ | ⟨hji, other, ho, hcore⟩
    · rw [hid]
      exact AList.lookup_insert _
    · obtain ⟨-, -, hid, hmon, -⟩ := MonitorItem.core_inj.mp hcore
      have hmo : other.isMonitored = true := hmon.symm.trans hm
      have hid' : item'.id ≠ result.monitoredItemId :=
        hid ▸ hother (List.mem_of_getElem? ho) hmo
      rw [AList.lookup_insert_ne hid', hf.subscriptionMap, hf.slot, hid]
      exact h.complete j other ho hmo

end Answered

/-- The body of the loop of `addMonitoredItems`: an item that is not monitored is registered,
and takes the id it is given. -/
theorem Bookkept.addMonitoredItem (reply : Reply V MonitoredItemCreateResult) (i : Nat)
    (h : Bookkept routed w) (hL : LibraryContract (addMonitoredItem reply i w).history) :
    Bookkept routed (addMonitoredItem reply i w) := by
  have hact := h.frame (activateIfAsync_frame w i)
  rcases addMonitoredItem_cases w reply i with ⟨he, -⟩ | ⟨he, -⟩ | ⟨item, first, hitem, hm, -, he⟩
  · exact he ▸ hact
  · exact he ▸ hact.frame (fail_frame _ _)
  rw [he] at hL ⊢
  generalize activateIfAsync i w = w₀ at hact hitem hL
  have hdoc : Event.Documented w₀.history
      (.createDataChange (monitoringRequest w₀ item first) reply.result) :=
    (hL.of_suffix ((libraryCall_frame _ _ _).grows.trans (monitoringAnswered_history _ _ _ _)).suffix).1
  by_cases hgood : reply.result.statusCode.isGood = true
  · obtain ⟨hne, -, hfresh⟩ := hdoc hgood
    exact ⟨hact.1.monitoringAnswered_good hitem rfl rfl rfl hne hgood _,
      fun hr => (hact.2 hr).monitoringAnswered_good hact.1 hitem hm hgood hfresh _⟩
  · unfold monitoringAnswered
    rw [if_neg hgood]
    refine Bookkept.frame (handleException_frame _ _) (hact.libraryCall ⟨rfl, ?_⟩ _)
    simp [Event.registers, hgood]

theorem Bookkept.addMonitoredItems (replies : Nat → Reply V MonitoredItemCreateResult)
    (h : Bookkept routed w) (hL : LibraryContract (addMonitoredItems replies w).history) :
    Bookkept routed (addMonitoredItems replies w) := by
  unfold OpcUaBackend.addMonitoredItems at hL ⊢
  generalize List.range w.items.size = is at hL ⊢
  induction is generalizing w with
  | nil => exact h
  | cons i is ih =>
    exact ih (h.addMonitoredItem _ i (hL.of_suffix (foldl_addMonitoredItem_history _ _ is).suffix)) hL

theorem Bookkept.andThen {r : Result V} {f : World V → Result V} (hr : Bookkept routed r.world)
    (hf : ∀ w, Bookkept routed w → LibraryContract (f w).world.history →
      Bookkept routed (f w).world)
    (hL : LibraryContract (r.andThen f).world.history) : Bookkept routed (r.andThen f).world := by
  cases r with
  | returned w => exact hf w hr hL
  | threw message w => exact hr

theorem Bookkept.prepare (r : Replies V) (h : Bookkept routed w) (hc : w.Clean)
    (hL : LibraryContract (prepare r w).world.history) : Bookkept routed (prepare r w).world :=
  (h.createSubscription r hc).andThen (fun _ hw hL => hw.addMonitoredItems _ hL) hL

theorem Bookkept.activateSubscribed (r : Replies V) (h : Bookkept routed w)
    (hL : LibraryContract (activateSubscribed r w).history) :
    Bookkept routed (activateSubscribed r w) := by
  have hset : Bookkept routed { w with asyncReadActive := true } :=
    h.of_flags rfl rfl rfl rfl id
  unfold OpcUaBackend.activateSubscribed at hL ⊢
  simp only at hL ⊢
  split at hL
  · rename_i hadd
    rw [if_pos hadd]
    exact hset.addMonitoredItems _ hL
  · rename_i hadd
    rw [if_neg hadd]
    exact hset.frame (activateItems_frame _)

theorem Bookkept.activate (r : Replies V) (h : Bookkept routed w)
    (hc : w.subscriptionActive = false → w.Clean)
    (hL : LibraryContract (activate r w).world.history) :
    Bookkept routed (activate r w).world :=
  (h.ensureSubscription r hc).andThen (fun _ hw hL => hw.activateSubscribed r hL) hL

/-! ### Deactivating, and the client thread -/

theorem Bookkept.deactivate {removal : World V → World V}
    (hr : ∀ {w}, Bookkept routed w → Bookkept routed (removal w)) (h : Bookkept routed w) :
    Bookkept routed (deactivate removal w) := by
  let w₁ : World V := { clearActive w with run := false }
  let w₂ : World V := { w₁ with subscriptionActive := false }
  have h₁ : Bookkept routed w₁ :=
    (h.frame (clearActive_frame w)).of_flags rfl rfl rfl rfl id
  have h₂ : Bookkept routed w₂ := h₁.of_flags rfl rfl rfl rfl fun h => by simp [w₂] at h
  unfold OpcUaBackend.deactivate
  simp only
  split
  · split
    · exact h₂.of_flags rfl rfl rfl rfl id
    · exact (hr h₂).of_flags rfl rfl rfl rfl id
  · exact h₁.of_flags rfl rfl rfl rfl id

theorem Bookkept.deactivateAllAndPushException {removal : World V → World V}
    (hr : ∀ {w}, Bookkept routed w → Bookkept routed (removal w)) (message : String)
    (h : Bookkept routed w) : Bookkept routed (deactivateAllAndPushException removal message w) :=
  (h.frame (handleException_frame w message)).deactivate hr

theorem Bookkept.clientStep (iterate removal : Reply V UA_StatusCode) (h : Bookkept routed w) :
    Bookkept routed (clientStep iterate removal w) := by
  have hrun := h.frame (runCallbacks_frame w iterate.callbacks)
  unfold OpcUaBackend.clientStep
  split
  · exact h.of_flags rfl rfl rfl rfl id
  · simp only
    split
    · exact hrun.of_flags rfl rfl rfl rfl id
    · split <;> exact hrun.of_flags rfl rfl rfl rfl id
  · split
    · exact (h.removeSubscription removal).of_flags rfl rfl rfl rfl id
    · exact h.of_flags rfl rfl rfl rfl id
  · exact h.of_flags rfl rfl rfl rfl id
  · exact h
  · exact h

theorem Bookkept.stopClientThread
    (steps : List (Reply V UA_StatusCode × Reply V UA_StatusCode)) (h : Bookkept routed w) :
    Bookkept routed (stopClientThread steps w) := by
  induction steps generalizing w with
  | nil =>
    unfold OpcUaBackend.stopClientThread
    split
    · exact h
    · exact h.of_flags rfl rfl rfl rfl id
    · exact h.frame (fail_frame w _)
  | cons step steps ih =>
    unfold OpcUaBackend.stopClientThread
    split
    · exact h
    · exact h.of_flags rfl rfl rfl rfl id
    · exact ih (h.clientStep _ _)

theorem Bookkept.start (h : Bookkept routed w) : Bookkept routed (start w) := by
  unfold OpcUaBackend.start
  split
  · split <;> exact h.of_flags rfl rfl rfl rfl id
  · exact h.of_flags rfl rfl rfl rfl id

theorem World.Unmonitored.clientStep (iterate removal : Reply V UA_StatusCode)
    (h : w.Unmonitored) : (clientStep iterate removal w).Unmonitored := by
  have hrun := h.frame (runCallbacks_frame w iterate.callbacks)
  unfold OpcUaBackend.clientStep
  split
  · exact h
  · simp only
    split
    · exact hrun
    · split <;> exact hrun
  · split
    · exact removeSubscription_unmonitored removal w
    · exact h
  · exact h
  · exact h
  · exact h

theorem World.Unmonitored.stopClientThread
    (steps : List (Reply V UA_StatusCode × Reply V UA_StatusCode)) (h : w.Unmonitored) :
    (stopClientThread steps w).Unmonitored := by
  induction steps generalizing w with
  | nil =>
    unfold OpcUaBackend.stopClientThread
    split <;> exact h
  | cons step steps ih =>
    unfold OpcUaBackend.stopClientThread
    split
    · exact h
    · exact h
    · exact ih (h.clientStep _ _)

/-! ### Accessors -/

/-- A change of the accessors of an item. -/
theorem Bookkept.modifyAccessors (h : Bookkept routed w) {i : Nat} {item : MonitorItem}
    (hitem : w.items.elems[i]? = some item) {f : List Accessor → List Accessor}
    (hf : (f item.accessors).isEmpty = item.accessors.isEmpty) :
    Bookkept routed { w with
      items := w.items.modify i fun item => { item with accessors := f item.accessors } } := by
  refine h.rekey rfl (List.ext_getElem? fun j => ?_) rfl (fun _ => rfl) rfl (.inl rfl)
    fun ha => ⟨ha, rfl⟩
  rw [List.getElem?_map, List.getElem?_map]
  by_cases hji : j = i
  · subst hji
    rw [SlotDeque.getElem?_modify_self _ _ hitem, hitem]
    simp [MonitorItem.key, MonitorItem.label, hf]
  · rw [SlotDeque.getElem?_modify_of_ne _ _ hji]

theorem World.Clean.pushBack {item : MonitorItem} (hnew : item.isMonitored = false)
    (h : w.Clean) : World.Clean { w with items := w.items.pushBack item } := by
  refine h.imp id fun hu => ?_
  intro item' hmem
  simp only [SlotDeque.elems_pushBack, List.mem_append, List.mem_singleton] at hmem
  rcases hmem with hmem | rfl
  · exact hu item' hmem
  · exact hnew

/-- A new item that is not monitored. -/
theorem Bookkept.pushBack (h : Bookkept routed w) (item : MonitorItem)
    (hnew : item.isMonitored = false) (hacc : item.accessors.isEmpty = false)
    (hname : ∀ other ∈ w.items.elems, other.browseName ≠ item.browseName) :
    Bookkept routed { w with items := w.items.pushBack item } := by
  refine ⟨⟨⟨?_, ?_⟩, ?_, h.1.subscriptionID, fun ha => (h.1.active ha).pushBack hnew⟩,
    fun hr => ⟨?_, ?_⟩⟩
  · simp only [SlotDeque.elems_pushBack, List.map_append, List.map_cons, List.map_nil]
    refine List.Nodup.append h.1.items.names (List.nodup_singleton _) ?_
    simpa [List.Disjoint] using hname
  · intro item' hmem
    simp only [SlotDeque.elems_pushBack, List.mem_append, List.mem_singleton] at hmem
    rcases hmem with hmem | rfl
    · exact h.1.items.accessors item' hmem
    · exact hacc
  · intro item' hmem hm
    simp only [SlotDeque.elems_pushBack, List.mem_append, List.mem_singleton] at hmem
    rcases hmem with hmem | rfl
    · exact h.1.registered item' hmem hm
    · simp [hnew] at hm
  · intro m p hl
    obtain ⟨i, item', rfl, hitem, hid, hm⟩ := (h.2 hr).sound m p hl
    have hlt := (List.getElem?_eq_some_iff.mp hitem).1
    exact ⟨i, item', rfl, by simpa [List.getElem?_append_left hlt] using hitem, hid, hm⟩
  · intro i item' hitem hm
    simp only [SlotDeque.elems_pushBack, SlotDeque.slot_pushBack] at hitem ⊢
    by_cases hlt : i < w.items.elems.length
    · rw [List.getElem?_append_left hlt] at hitem
      exact (h.2 hr).complete i item' hitem hm
    · rw [List.getElem?_append_right (by omega)] at hitem
      have := List.mem_of_getElem? hitem
      simp_all

theorem Bookkept.subscribe (r : Replies V) (browseName : String) (node : UA_NodeId)
    (a : Accessor) (h : Bookkept routed w)
    (hc : w.find? browseName = none → w.asyncReadActive = true →
      w.subscriptionActive = false → w.Clean)
    (hL : LibraryContract (subscribe r browseName node a w).world.history) :
    Bookkept routed (subscribe r browseName node a w).world := by
  have h₀ : Bookkept routed (w.record (.subscribed a browseName)) :=
    h.frame (record_frame w rfl)
  have hc₀ : (w.record (.subscribed a browseName)).find? browseName = none →
      (w.record (.subscribed a browseName)).asyncReadActive = true →
      (w.record (.subscribed a browseName)).subscriptionActive = false →
      (w.record (.subscribed a browseName)).Clean := hc
  unfold OpcUaBackend.subscribe at hL ⊢
  generalize w.record (.subscribed a browseName) = w at h₀ hc₀ hL
  simp only at hL ⊢
  cases hfind : w.find? browseName with
  | none =>
    have hpush := h₀.pushBack ⟨node, [a], 0, false, false, false, browseName⟩ rfl rfl
      (World.find?_eq_none hfind)
    simp only [hfind] at hL ⊢
    split at hL
    · rename_i hasync
      rw [if_pos hasync]
      have hsub := hpush.ensureSubscription r fun hactive =>
        (hc₀ hfind hasync hactive).pushBack rfl
      refine hsub.andThen (fun w₁ h₁ hL => ?_) hL
      exact h₁.addMonitoredItems _ hL
    · rename_i hasync
      rw [if_neg hasync]
      exact hpush
  | some found =>
    obtain ⟨i, item⟩ := found
    simp only
    split
    · exact h₀.frame (fail_frame w _)
    · have hitem := (World.find?_eq_some hfind).1
      have hacc := h₀.1.items.accessors item (List.mem_of_getElem? hitem)
      have hadd := h₀.modifyAccessors hitem (f := (· ++ [a])) (by simp [hacc])
      split
      · exact hadd.frame (pushInitialValue_frame _ _ _ _)
      · exact hadd

/-- The removal of an item, with its address. -/
theorem World.SafeRemoval.apply {i j : Nat} {item other : MonitorItem}
    (h : w.SafeRemoval i item) (hj : w.items.elems[j]? = some other) (hji : j ≠ i)
    (hm : other.isMonitored = true) : ¬ w.items.Moved i j ∧ other.id ≠ item.id :=
  h j (List.getElem?_eq_some_iff.mp hj).1 other hj hji hm

theorem Bookkept.removeItem (h : Bookkept routed w) {i : Nat} {item : MonitorItem}
    (hitem : w.items.elems[i]? = some item) (hs : routed → w.SafeRemoval i item) :
    Bookkept routed { w with
      subscriptionMap := w.subscriptionMap.erase item.id
      items := w.items.erase i } := by
  refine ⟨⟨⟨?_, ?_⟩, ?_, h.1.subscriptionID, fun ha => ?_⟩, fun hr => ⟨?_, ?_⟩⟩
  · exact h.1.items.names.sublist ((List.eraseIdx_sublist _ _).map _)
  · exact fun other hmem => h.1.items.accessors other (List.mem_of_mem_eraseIdx hmem)
  · exact fun other hmem hm => h.1.registered other (List.mem_of_mem_eraseIdx hmem) hm
  · exact (h.1.active ha).imp id fun hu other hmem => hu other (List.mem_of_mem_eraseIdx hmem)
  · intro m p hl
    have hne : m ≠ item.id := by
      rintro rfl
      simp at hl
    rw [AList.lookup_erase_ne hne] at hl
    obtain ⟨j, other, rfl, hj, hid, hm⟩ := (h.2 hr).sound m p hl
    have hji : j ≠ i := by
      rintro rfl
      exact hne (hid.symm.trans (congrArg _ (Option.some_inj.mp (hj.symm.trans hitem))))
    refine ⟨SlotDeque.posAfter i j, other, ?_, ?_, hid, hm⟩
    · exact (w.items.slot_erase_of_not_moved hji ((hs hr).apply hj hji hm).1).symm
    · exact (w.items.getElem?_erase_posAfter hji).trans hj
  · intro j' other hj' hm
    obtain ⟨j, hji, rfl, hj⟩ := w.items.exists_of_getElem?_erase hj'
    obtain ⟨hmoved, hid⟩ := (hs hr).apply hj hji hm
    rw [AList.lookup_erase_ne hid, w.items.slot_erase_of_not_moved hji hmoved]
    exact (h.2 hr).complete j other hj hm

theorem Bookkept.unsubscribeItem (r : Replies V) (browseName : String) (id : Nat)
    (h : Bookkept routed w) : Bookkept routed (unsubscribeItem r browseName id w) := by
  have hdel : Bookkept routed (OpcUaBackend.libraryCall
      (.deleteMonitoredItem w.subscriptionID id browseName r.deleteMonitoredItem.result)
      r.deleteMonitoredItem.callbacks w) := h.libraryCall ⟨rfl, rfl⟩ _
  unfold OpcUaBackend.unsubscribeItem
  simp only
  split
  · refine Bookkept.stopClientThread _ ?_
    exact (hdel.removeSubscription r.subscriptionsDelete).of_flags rfl rfl rfl rfl fun ha => ha
  · exact hdel

theorem Bookkept.unsubscribe (r : Replies V) (browseName : String) (a : Accessor)
    (h : Bookkept routed w)
    (hs : routed → ∀ found ∈ w.find? browseName, found.2.accessors.length ≤ 1 →
      w.SafeRemoval found.1 found.2) :
    Bookkept routed (unsubscribe r browseName a w) := by
  unfold OpcUaBackend.unsubscribe
  split
  · exact h
  · rename_i i item hfind
    split
    · split
      · rename_i hmany ha
        have hitem := (World.find?_eq_some hfind).1
        have hleft : (item.accessors.erase a).length = item.accessors.length - 1 :=
          List.length_erase_of_mem ha
        refine h.modifyAccessors hitem (f := (·.erase a)) ?_
        rw [h.1.items.accessors item (List.mem_of_getElem? hitem), List.isEmpty_eq_false_iff,
          ← List.length_pos_iff]
        omega
      · exact h.frame (fail_frame w _)
    · rename_i hlast
      have hrem := h.removeItem (World.find?_eq_some hfind).1 fun hr =>
        hs hr (i, item) hfind (Nat.le_of_not_lt hlast)
      simp only
      split
      · exact hrem.unsubscribeItem r browseName item.id
      · exact hrem

/-! ### The backend -/

theorem Bookkept.resetClient (r : Replies V) (h : Bookkept routed w) :
    Bookkept routed (resetClient r w) := by
  unfold OpcUaBackend.resetClient
  refine Bookkept.frame (runCallbacks_frame _ _) ?_
  split
  · exact (h.deactivate (·.removeSubscription _)).resetMonitoredItems.stopClientThread _
  · exact h

/-- After `resetClient` nothing is monitored, unless there is no manager. -/
theorem resetClient_unmonitored (r : Replies V)
    (hm : (resetClient r w).subscriptionManager = true) : (resetClient r w).Unmonitored := by
  unfold resetClient at hm ⊢
  split at hm
  · rename_i hm'
    rw [if_pos hm']
    exact ((resetMonitoredItems_unmonitored _).stopClientThread _).frame (runCallbacks_frame _ _)
  · rename_i hm'
    exact absurd ((runCallbacks_frame w _).subscriptionManager.symm.trans hm) hm'

theorem Bookkept.connect (reset r : Replies V) (h : Bookkept routed w)
    (hL : LibraryContract (connect reset r w).world.history) :
    Bookkept routed (connect reset r w).world := by
  have hf := runCallbacks_frame (OpcUaBackend.resetClient reset w) r.connect.callbacks
  have hconn := (h.resetClient reset).frame hf
  have hu : (runCallbacks r.connect.callbacks (OpcUaBackend.resetClient reset w)).subscriptionManager
      = true → (runCallbacks r.connect.callbacks (OpcUaBackend.resetClient reset w)).Unmonitored :=
    fun hm => (resetClient_unmonitored reset (hf.subscriptionManager.symm.trans hm)).frame hf
  unfold OpcUaBackend.connect at hL ⊢
  generalize runCallbacks r.connect.callbacks (OpcUaBackend.resetClient reset w) = w₁
    at hconn hu hL ⊢
  simp only at hL ⊢
  split
  · rename_i hgood
    rw [if_pos hgood] at hL
    split
    · rename_i hm
      rw [if_pos hm] at hL
      exact hconn.prepare r (.inr (hu hm)) hL
    · exact hconn
  · exact hconn

theorem Bookkept.openDevice (stop reset r : Replies V) (h : Bookkept routed w)
    (hL : LibraryContract (openDevice stop reset r w).world.history) :
    Bookkept routed (openDevice stop reset r w).world := by
  have hstop : Bookkept routed
      (if w.subscriptionManager then OpcUaBackend.stopClientThread stop.clientSteps w else w) := by
    split
    · exact h.stopClientThread _
    · exact h
  have hopened : ∀ w : World V, Bookkept routed w → LibraryContract (if w.isConnected then
        Result.returned { w with opened := true, hasActiveException := false }
      else .threw "Connection could not be established." w).world.history →
      Bookkept routed (if w.isConnected then
        Result.returned { w with opened := true, hasActiveException := false }
      else .threw "Connection could not be established." w).world := by
    intro w hw _
    split
    · exact hw.of_flags rfl rfl rfl rfl id
    · exact hw
  unfold OpcUaBackend.openDevice at hL ⊢
  simp only at hL ⊢
  refine Bookkept.andThen ?_ hopened hL
  split
  · exact h
  · rename_i hc
    rw [if_neg hc] at hL
    exact hstop.connect reset r (hL.of_suffix (Result.andThen_history fun w => by
      split <;> exact .refl _).suffix)

theorem Bookkept.activateAsyncRead (r : Replies V) (h : Bookkept routed w)
    (hc : w.isFunctional = true → w.subscriptionActive = false → w.Clean)
    (hL : LibraryContract (activateAsyncRead r w).history) :
    Bookkept routed (activateAsyncRead r w) := by
  have hset : Bookkept routed { w with subscriptionManager := true } :=
    h.of_flags rfl rfl rfl rfl id
  unfold OpcUaBackend.activateAsyncRead at hL ⊢
  split
  · rename_i hfun
    rw [if_pos hfun] at hL
    have hact := hset.activate r (hc hfun)
    generalize OpcUaBackend.activate r { w with subscriptionManager := true } = result
      at hact hL ⊢
    cases result with
    | threw message w₁ => exact (hact hL).frame (fail_frame w₁ _)
    | returned w₁ =>
      simp only at hL ⊢
      split
      · rename_i hnone
        rw [if_pos hnone] at hL
        exact (hact (hL.of_suffix (start_history w₁).suffix)).start
      · rename_i hsome
        rw [if_neg hsome] at hL
        exact hact hL
  · exact h

theorem Bookkept.constructAccessor (r : Replies V) (browseName : String) (node : UA_NodeId)
    (a : Accessor) (h : Bookkept routed w)
    (hc : w.find? browseName = none → w.asyncReadActive = true →
      w.subscriptionActive = false → w.Clean)
    (hL : LibraryContract (constructAccessor r browseName node a w).world.history) :
    Bookkept routed (constructAccessor r browseName node a w).world := by
  have hset : Bookkept routed { w with subscriptionManager := true } :=
    h.of_flags rfl rfl rfl rfl id
  refine (hset.subscribe r browseName node a hc (hL.of_suffix (Grows.suffix ?_))).andThen
    (fun w₁ h₁ _ => ?_) hL
  · refine Result.andThen_history fun w₁ => ?_
    split
    · exact start_history w₁
    · exact .refl _
  · split
    · exact h₁.start
    · exact h₁

/-! ### Every call -/

/-- A call that creates a subscription finds none of the items marked as monitored, or an old
subscription to clean up. -/
def Call.Clean (w : World V) : Call V → Prop
  | .activate _ => w.subscriptionActive = false → w.Clean
  | .activateAsyncRead _ => w.isFunctional = true → w.subscriptionActive = false → w.Clean
  | .subscribe _ browseName _ _ | .constructAccessor _ browseName _ _ =>
    w.find? browseName = none → w.asyncReadActive = true → w.subscriptionActive = false → w.Clean
  | .prepare _ | .createSubscription _ => w.Clean
  | _ => True

/-- A call that removes an item removes it safely. -/
def Call.SafeRemoval (w : World V) : Call V → Prop
  | .unsubscribe _ browseName _ =>
    ∀ found ∈ w.find? browseName, found.2.accessors.length ≤ 1 →
      w.SafeRemoval found.1 found.2
  | _ => True

instance (w : World V) (c : Call V) : Decidable (c.Clean w) := by
  cases c <;> unfold Call.Clean <;> infer_instance

instance (w : World V) (c : Call V) : Decidable (c.SafeRemoval w) := by
  cases c <;> unfold Call.SafeRemoval <;> infer_instance

/-- **Every call keeps the invariants**, given that subscriptions are created in clean states
and, for the addresses, that items are removed safely. -/
theorem Bookkept.exec (c : Call V) (h : Bookkept routed w) (hc : c.Clean w)
    (hs : routed → c.SafeRemoval w) (hL : LibraryContract (c.exec w).world.history) :
    Bookkept routed (c.exec w).world := by
  cases c with
  | connect reset r => exact h.connect reset r hL
  | openDevice stop reset r => exact h.openDevice stop reset r hL
  | closeDevice r =>
    have hset : Bookkept routed { w with opened := false } := h.of_flags rfl rfl rfl rfl id
    exact hset.resetClient r
  | activateAsyncRead r => exact h.activateAsyncRead r hc hL
  | setException r =>
    have hset : Bookkept routed { w with hasActiveException := true } :=
      h.of_flags rfl rfl rfl rfl id
    show Bookkept routed (OpcUaBackend.setException r w)
    unfold OpcUaBackend.setException
    simp only
    split
    · exact hset.deactivateAllAndPushException (·.removeSubscription _) _
    · exact hset
  | constructAccessor r name node a => exact h.constructAccessor r name node a hc hL
  | subscribe r name node a => exact h.subscribe r name node a hc hL
  | unsubscribe r name a => exact h.unsubscribe r name a hs
  | activate r => exact h.activate r hc hL
  | deactivate r => exact h.deactivate (·.removeSubscription _)
  | deactivateAllAndPushException r message =>
    exact h.deactivateAllAndPushException (·.removeSubscription _) message
  | setExternalError name a => exact h.frame (setExternalError_frame w name a)
  | prepare r => exact h.prepare r hc hL
  | createSubscription r => exact h.createSubscription r hc
  | addMonitoredItems r => exact h.addMonitoredItems _ hL
  | resetMonitoredItems => exact h.resetMonitoredItems
  | removeSubscription r => exact h.removeSubscription _
  | start => exact h.start
  | stopClientThread r => exact h.stopClientThread _
  | clientStep iterate removal => exact h.clientStep iterate removal
  | popNotification a => exact h.frame (popNotification_frame w a)
  | ownTransfer a data => exact h.frame (ownTransfer_frame w a data)
  | callbacks cs => exact h.frame (runCallbacks_frame w cs)

theorem Bookkept.fresh (h : World.Fresh w) : Bookkept routed w := by
  have hu : w.Unmonitored := by simp [World.Unmonitored, h.items]
  have hitems : WellFormed w := by constructor <;> simp [h.items]
  refine ⟨.of_unmonitored hitems hu fun hne => ?_, fun _ => .of_unmonitored hu ?_⟩
  · exact absurd (congrArg Lifecycle.subscriptionID h.lifecycle) hne
  · simp [h.subscriptionMap]

end OpcUaBackend
