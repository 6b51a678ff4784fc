import OpcUaBackend.Backend.Calls

/-!
# What the operations leave unchanged

Callbacks, and the parts of the functions that call neither the server nor the container
operations of the items, only change flags: of an item they change `active` and
`hasException`, and the subscription id they change only to zero. `Frame` states this once
for all of them. Every call extends the history, so that what the library kept in the end it
kept before.

## Main definitions

* `MonitorItem.core`: the part of an item that flags are not
* `Frame w w'`: `w'` differs from `w` by flags, queues and local events
* `Calm w w'`: `w'` differs from `w` by exceptions, queues and local events

## Main results

* `runCallbacks_frame`, `libraryCall_frame`: callbacks are framed
* `runCallbacks_calm`: callbacks that report no loss are calm
* `Call.exec_history`: every call extends the history
-/

namespace OpcUaBackend

open Foundation

variable {V : Type}

/-! ## Events that involve no library call -/

/-- The event is no call of the library. -/
def Event.isLocal : Event V → Bool
  | .pushed _ _ => true
  | .activated _ _ _ => true
  | .reported _ _ _ => true
  | .subscribed _ _ => true
  | .transferred _ => true
  | _ => false

/-- The event is a request to delete a monitored item. -/
def Event.deletes : Event V → Bool
  | .deleteMonitoredItem _ _ _ _ => true
  | _ => false

theorem Event.not_deletes_of_isLocal {e : Event V} (he : e.isLocal = true) :
    e.deletes = false := by
  cases e <;> simp_all [Event.isLocal, Event.deletes]

/-- The history of `w'` adds events to that of `w`, and deletes no monitored item. -/
def Grows (w w' : World V) : Prop := Extends (fun e => e.deletes = false) w.history w'.history

protected theorem Grows.refl (w : World V) : Grows w w := Extends.refl _

protected theorem Grows.trans {w w' w'' : World V} (h : Grows w w') (h' : Grows w' w'') :
    Grows w w'' :=
  Extends.trans h h'

theorem Grows.suffix {w w' : World V} (h : Grows w w') : w.history <:+ w'.history :=
  Extends.suffix h

section QuietEvents

variable {es h : List (Event V)}

/-- The event neither creates a subscription nor registers an item. -/
def Event.Quiet (e : Event V) : Prop := e.opensSubscription = false ∧ e.registers = none

theorem Event.quiet_of_isLocal {e : Event V} (he : e.isLocal = true) : e.Quiet := by
  cases e <;> simp_all [Event.isLocal, Event.Quiet, Event.opensSubscription, Event.registers]

theorem registration_quiet (hes : ∀ e ∈ es, e.Quiet) (browseName : String) :
    registration (es ++ h) browseName = registration h browseName := by
  induction es with
  | nil => rfl
  | cons e es ih =>
    obtain ⟨hopen, hreg⟩ := hes e (List.mem_cons_self ..)
    rw [← ih fun e' he' => hes e' (List.mem_cons_of_mem _ he')]
    simp only [registration, currentEvents, List.cons_append, since_cons_go _ hopen,
      List.findSome?_cons, Event.registersItem, hreg, Option.filter_none]

theorem currentSubscription_quiet (hes : ∀ e ∈ es, e.Quiet) :
    currentSubscription (es ++ h) = currentSubscription h := by
  induction es with
  | nil => rfl
  | cons e es ih =>
    obtain ⟨hopen, -⟩ := hes e (List.mem_cons_self ..)
    rw [← ih fun e' he' => hes e' (List.mem_cons_of_mem _ he')]
    cases e <;> simp_all [currentSubscription, Event.opensSubscription]

theorem issuedIds_quiet (hes : ∀ e ∈ es, e.Quiet) : issuedIds (es ++ h) = issuedIds h := by
  induction es with
  | nil => rfl
  | cons e es ih =>
    obtain ⟨hopen, hreg⟩ := hes e (List.mem_cons_self ..)
    rw [← ih fun e' he' => hes e' (List.mem_cons_of_mem _ he')]
    simp only [issuedIds, currentEvents, List.cons_append, since_cons_go _ hopen,
      List.filterMap_cons, hreg]

end QuietEvents

/-! ## Frames -/

/-- The item without its flags `active` and `hasException`. -/
def MonitorItem.core (item : MonitorItem) : MonitorItem :=
  { item with active := false, hasException := false }

theorem MonitorItem.core_inj {item item' : MonitorItem} :
    item.core = item'.core ↔ item.node = item'.node ∧ item.accessors = item'.accessors ∧
      item.id = item'.id ∧ item.isMonitored = item'.isMonitored ∧
      item.browseName = item'.browseName := by
  simp [core, MonitorItem.mk.injEq]

/-- `w'` differs from `w` by flags, queues and local events, and perhaps by a subscription
that is gone. -/
structure Frame (w w' : World V) : Prop where
  base : w'.items.base = w.items.base
  core : w'.items.elems.map MonitorItem.core = w.items.elems.map MonitorItem.core
  subscriptionMap : w'.subscriptionMap = w.subscriptionMap
  opcuaThread : w'.opcuaThread = w.opcuaThread
  subscriptionManager : w'.subscriptionManager = w.subscriptionManager
  history : Extends (fun e => e.isLocal = true) w.history w'.history
  subscriptionID : w'.subscriptionID = w.subscriptionID ∨ w'.subscriptionID = 0
  active : w'.subscriptionActive = true →
    w.subscriptionActive = true ∧ w'.subscriptionID = w.subscriptionID

namespace Frame

variable {w w' w'' : World V}

protected theorem refl (w : World V) : Frame w w :=
  ⟨rfl, rfl, rfl, rfl, rfl, ⟨[], rfl, by simp⟩, .inl rfl, fun h => ⟨h, rfl⟩⟩

protected theorem trans (h : Frame w w') (h' : Frame w' w'') : Frame w w'' := by
  refine ⟨h'.base.trans h.base, h'.core.trans h.core,
    h'.subscriptionMap.trans h.subscriptionMap, h'.opcuaThread.trans h.opcuaThread,
    h'.subscriptionManager.trans h.subscriptionManager, ?_, ?_, ?_⟩
  · obtain ⟨es, he, hl⟩ := h.history
    obtain ⟨es', he', hl'⟩ := h'.history
    refine ⟨es' ++ es, by rw [he', he, List.append_assoc], ?_⟩
    intro e hmem
    rcases List.mem_append.mp hmem with hm | hm
    · exact hl' e hm
    · exact hl e hm
  · rcases h'.subscriptionID with he | he
    · rw [he]
      exact h.subscriptionID
    · exact .inr he
  · intro ha
    obtain ⟨ha', hid'⟩ := h'.active ha
    obtain ⟨ha'', hid⟩ := h.active ha'
    exact ⟨ha'', hid'.trans hid⟩

theorem grows (h : Frame w w') : Grows w w' := h.history.mono fun _ => Event.not_deletes_of_isLocal

/-- An item after the step is an item from before it, with other flags. -/
theorem getElem? (h : Frame w w') {i : Nat} {item' : MonitorItem}
    (hi : w'.items.elems[i]? = some item') :
    ∃ item, w.items.elems[i]? = some item ∧ item'.core = item.core :=
  SlotDeque.exists_getElem?_of_map_eq h.core hi

protected theorem symm_getElem? (h : Frame w w') {i : Nat} {item : MonitorItem}
    (hi : w.items.elems[i]? = some item) :
    ∃ item', w'.items.elems[i]? = some item' ∧ item'.core = item.core := by
  obtain ⟨item', hi', hcore⟩ := SlotDeque.exists_getElem?_of_map_eq h.core.symm hi
  exact ⟨item', hi', hcore.symm⟩

theorem size (h : Frame w w') : w'.items.size = w.items.size := by
  simpa [SlotDeque.size] using congrArg List.length h.core

theorem slot (h : Frame w w') (i : Nat) : w'.items.slot i = w.items.slot i := by
  simp [SlotDeque.slot, h.base]

theorem names (h : Frame w w') :
    w'.items.elems.map (·.browseName) = w.items.elems.map (·.browseName) := by
  have hc := congrArg (List.map MonitorItem.browseName) h.core
  simpa [List.map_map, Function.comp_def, MonitorItem.core] using hc

theorem registration (h : Frame w w') (browseName : String) :
    registration w'.history browseName = OpcUaBackend.registration w.history browseName := by
  obtain ⟨es, he, hl⟩ := h.history
  rw [he, registration_quiet fun e he => Event.quiet_of_isLocal (hl e he)]

theorem currentSubscription (h : Frame w w') :
    currentSubscription w'.history = OpcUaBackend.currentSubscription w.history := by
  obtain ⟨es, he, hl⟩ := h.history
  rw [he, currentSubscription_quiet fun e he => Event.quiet_of_isLocal (hl e he)]

theorem issuedIds (h : Frame w w') :
    issuedIds w'.history = OpcUaBackend.issuedIds w.history := by
  obtain ⟨es, he, hl⟩ := h.history
  rw [he, issuedIds_quiet fun e he => Event.quiet_of_isLocal (hl e he)]

/-- A step that changes no item, no address and no history. -/
theorem of_flags (hitems : w'.items = w.items) (hmap : w'.subscriptionMap = w.subscriptionMap)
    (hthread : w'.opcuaThread = w.opcuaThread)
    (hmanager : w'.subscriptionManager = w.subscriptionManager) (hhistory : w'.history = w.history)
    (hid : w'.subscriptionID = w.subscriptionID)
    (hactive : w'.subscriptionActive = true → w.subscriptionActive = true) : Frame w w' :=
  ⟨by rw [hitems], by rw [hitems], hmap, hthread, hmanager, ⟨[], by simpa using hhistory, by simp⟩,
    .inl hid, fun h => ⟨hactive h, hid⟩⟩

end Frame

section Frames

variable (w : World V)

theorem record_frame {e : Event V} (he : e.isLocal = true) : Frame w (w.record e) :=
  ⟨rfl, rfl, rfl, rfl, rfl, ⟨[e], rfl, by simpa using he⟩, .inl rfl, fun h => ⟨h, rfl⟩⟩

theorem fail_frame (f : Fault) : Frame w (w.fail f) := .of_flags rfl rfl rfl rfl rfl rfl id

theorem push_frame (n : Notification V) (a : Accessor) : Frame w (w.push n a) :=
  ⟨rfl, rfl, rfl, rfl, rfl, ⟨[.pushed a n], rfl, by simp [Event.isLocal]⟩, .inl rfl,
    fun h => ⟨h, rfl⟩⟩

theorem pushAll_frame (n : Notification V) (as : List Accessor) : Frame w (w.pushAll n as) := by
  induction as generalizing w with
  | nil => exact .refl w
  | cons a as ih => exact (push_frame w n a).trans (ih _)

/-- Changing flags of items in their slots is framed. -/
theorem mapSlots_frame {f : Nat → MonitorItem → MonitorItem}
    (hf : ∀ p item, (f p item).core = item.core) :
    Frame w { w with items := w.items.mapSlots f } := by
  refine ⟨rfl, ?_, rfl, rfl, rfl, ⟨[], rfl, by simp⟩, .inl rfl, fun h => ⟨h, rfl⟩⟩
  refine List.ext_getElem? fun i => ?_
  simp only [List.getElem?_map, SlotDeque.getElem?_mapSlots, Option.map_map, Function.comp_def, hf]

theorem map_frame {f : MonitorItem → MonitorItem} (hf : ∀ item, (f item).core = item.core) :
    Frame w { w with items := w.items.map f } := by
  refine ⟨rfl, ?_, rfl, rfl, rfl, ⟨[], rfl, by simp⟩, .inl rfl, fun h => ⟨h, rfl⟩⟩
  simp [hf]

theorem modify_frame {f : MonitorItem → MonitorItem} (hf : ∀ item, (f item).core = item.core)
    (i : Nat) : Frame w { w with items := w.items.modify i f } := by
  refine ⟨rfl, ?_, rfl, rfl, rfl, ⟨[], rfl, by simp⟩, .inl rfl, fun h => ⟨h, rfl⟩⟩
  refine List.ext_getElem? fun j => ?_
  simp only [List.getElem?_map, SlotDeque.elems_modify, List.getElem?_modify]
  cases w.items.elems[j]? with
  | none => rfl
  | some item =>
    by_cases hij : i = j <;> simp [hij, hf]

theorem handleException_frame (message : String) : Frame w (handleException message w) := by
  refine Frame.trans (map_frame w (f := MonitorItem.raise) fun item => ?_) (pushAll_frame _ _ _)
  unfold MonitorItem.raise
  split <;> rfl

theorem clearActive_frame : Frame w (clearActive w) := by
  unfold clearActive
  simp only
  split
  · refine mapSlots_frame w fun p item => ?_
    split <;> rfl
  · refine (fail_frame w _).trans (mapSlots_frame _ fun p item => ?_)
    split <;> rfl

/-- The flag of an item is cleared when its slot is in the map. -/
theorem clearActive_getElem? (i : Nat) :
    (clearActive w).items.elems[i]? = w.items.elems[i]?.map fun item =>
      if w.items.slot i ∈ w.subscriptionMap.entries.map (·.2) then { item with active := false }
      else item := by
  unfold clearActive
  simp only
  split <;> exact SlotDeque.getElem?_mapSlots ..

theorem setInactive_frame : Frame w (setInactive w) :=
  ⟨rfl, rfl, rfl, rfl, rfl, ⟨[], rfl, by simp⟩, .inr rfl, fun h => absurd h (by simp [setInactive])⟩

/-- `deactivate` is framed when what it does under `client_lock` is. -/
theorem deactivate_frame {removal : World V → World V} (hr : ∀ w, Frame w (removal w)) :
    Frame w (deactivate removal w) := by
  let w₁ : World V := { clearActive w with run := false }
  let w₂ : World V := { w₁ with subscriptionActive := false }
  have h₁ : Frame w w₁ := (clearActive_frame w).trans (.of_flags rfl rfl rfl rfl rfl rfl id)
  have h₂ : Frame w w₂ := h₁.trans (.of_flags rfl rfl rfl rfl rfl rfl fun h => by simp [w₂] at h)
  unfold deactivate
  simp only
  split
  · split
    · exact h₂.trans (.of_flags rfl rfl rfl rfl rfl rfl id)
    · exact (h₂.trans (hr w₂)).trans (.of_flags rfl rfl rfl rfl rfl rfl id)
  · exact h₁.trans (.of_flags rfl rfl rfl rfl rfl rfl id)

theorem deactivateAllAndPushException_frame {removal : World V → World V}
    (hr : ∀ w, Frame w (removal w)) (message : String) :
    Frame w (deactivateAllAndPushException removal message w) :=
  (handleException_frame w message).trans (deactivate_frame _ hr)

theorem responseHandler_frame (monId : Nat) (value : DataValue V) :
    Frame w (responseHandler monId value w) := by
  unfold responseHandler
  split
  · exact .refl w
  · split
    · exact fail_frame w _
    · split
      · refine Frame.trans (mapSlots_frame w fun q item => ?_) (pushAll_frame _ _ _)
        split <;> rfl
      · exact .refl w

theorem stateCallback_frame (c : UA_SecureChannelState) (s : UA_SessionState) :
    Frame w (stateCallback c s w) := by
  have hset : Frame w { w with channelState := c, sessionState := s } :=
    .of_flags rfl rfl rfl rfl rfl rfl id
  unfold stateCallback
  simp only
  split
  · exact hset.trans (deactivateAllAndPushException_frame _ (fail_frame · _) _)
  · exact hset

theorem inactivityCallback_frame (subId : Nat) : Frame w (inactivityCallback subId w) := by
  unfold inactivityCallback
  split
  · exact (deactivateAllAndPushException_frame _ (fail_frame · _) _).trans
      (.of_flags rfl rfl rfl rfl rfl rfl id)
  · exact .refl w

theorem runCallback_frame (c : Callback V) : Frame w (runCallback w c) := by
  cases c with
  | state c s => exact stateCallback_frame w c s
  | inactivity subId => exact inactivityCallback_frame w subId
  | deleteSubscription subId => exact setInactive_frame w
  | dataChange monId value => exact responseHandler_frame w monId value

theorem runCallbacks_frame (cs : List (Callback V)) : Frame w (runCallbacks cs w) := by
  induction cs generalizing w with
  | nil => exact .refl w
  | cons c cs ih => exact (runCallback_frame w c).trans (ih _)

theorem libraryCall_frame (e : Event V) (cs : List (Callback V)) :
    Frame (w.record e) (libraryCall e cs w) :=
  runCallbacks_frame _ cs

theorem activateItem_frame (i : Nat) : Frame w (activateItem i w) := by
  have hset := modify_frame w (f := fun item => { item with active := true }) (fun _ => rfl) i
  unfold activateItem
  split
  · exact .refl w
  · exact hset.trans (record_frame _ rfl)

theorem activateIfAsync_frame (i : Nat) : Frame w (activateIfAsync i w) := by
  unfold activateIfAsync
  split
  · exact activateItem_frame w i
  · exact .refl w

/-- What the loop body of `addMonitoredItems` does after the activation: nothing for an item that
is monitored, else a registration request. -/
theorem addMonitoredItem_cases (reply : Reply V MonitoredItemCreateResult) (i : Nat) :
    (addMonitoredItem reply i w = activateIfAsync i w ∧
      ∀ item, (activateIfAsync i w).items.elems[i]? = some item → item.isMonitored = true) ∨
    (addMonitoredItem reply i w = (activateIfAsync i w).fail .noAccessor ∧
      ∃ item ∈ (activateIfAsync i w).items.elems, item.accessors = []) ∨
    ∃ item first, (activateIfAsync i w).items.elems[i]? = some item ∧
      item.isMonitored = false ∧ item.accessors.head? = some first ∧
      addMonitoredItem reply i w = monitoringAnswered i item.browseName reply.result
        (libraryCall (.createDataChange (monitoringRequest (activateIfAsync i w) item first)
          reply.result) reply.callbacks (activateIfAsync i w)) := by
  unfold addMonitoredItem
  generalize activateIfAsync i w = w₀
  simp only
  cases hitem : w₀.items.elems[i]? with
  | none => exact .inl ⟨rfl, by simp⟩
  | some item =>
    simp only
    by_cases hm : item.isMonitored = true
    · exact .inl ⟨if_pos hm, by simpa using hm⟩
    · rw [if_neg hm]
      cases hfirst : item.accessors.head? with
      | none =>
        exact .inr (.inl ⟨rfl, item, List.mem_of_getElem? hitem, List.head?_eq_none_iff.mp hfirst⟩)
      | some first =>
        exact .inr (.inr ⟨item, first, rfl, by simpa using hm, hfirst, rfl⟩)

theorem activateItems_frame : Frame w (activateItems w) := by
  have hset := map_frame w (f := fun item => { item with active := true }) fun _ => rfl
  refine ⟨hset.base, hset.core, rfl, rfl, rfl, ⟨_, rfl, ?_⟩, .inl rfl, fun h => ⟨h, rfl⟩⟩
  intro e he
  simp only [List.mem_reverse, List.mem_map] at he
  obtain ⟨item, -, rfl⟩ := he
  rfl

theorem popNotification_frame (a : Accessor) : Frame w (popNotification a w) :=
  .of_flags rfl rfl rfl rfl rfl rfl id

theorem ownTransfer_frame (a : Accessor) (data : DataValue V) : Frame w (ownTransfer a data w) :=
  (record_frame w (e := .transferred a) rfl).trans (.of_flags rfl rfl rfl rfl rfl rfl id)

theorem pushInitialValue_frame (front : Option (DataValue V)) (tmp a : Accessor) :
    Frame w (pushInitialValue front tmp a w).world := by
  have hpush : ∀ data : DataValue V, Frame w
      (if data.hasValue then Result.returned (w.push (.data data) a) else .returned w).world := by
    intro data
    split
    · exact push_frame w _ a
    · exact .refl w
  unfold pushInitialValue
  simp only
  split
  · exact hpush _
  · exact hpush _
  · split
    · exact fail_frame w _
    · exact hpush _

theorem setExternalError_frame (browseName : String) (a : Accessor) :
    Frame w (setExternalError browseName a w) := by
  unfold setExternalError
  split
  · exact .refl w
  · exact (modify_frame w (f := fun item => { item with hasException := true })
      (fun _ => rfl) _).trans (record_frame _ rfl)

end Frames

/-! ## Calm callbacks -/

section Calm

variable {w w' w'' : World V}

/-- The callback reports neither the loss of the connection nor inactivity or a deletion. -/
def Callback.isCalm : Callback V → Bool
  | .dataChange _ _ => true
  | .state channelState sessionState => channelState == .open && sessionState == .activated
  | _ => false

/-- The item without its flag `hasException`. -/
def MonitorItem.calm (item : MonitorItem) : MonitorItem := { item with hasException := false }

theorem MonitorItem.calm_inj {item item' : MonitorItem} (h : item.calm = item'.calm) :
    item.active = item'.active ∧ item.isMonitored = item'.isMonitored :=
  ⟨congrArg (·.active) h, congrArg (·.isMonitored) h⟩

/-- `w'` differs from `w` by exceptions, queues and local events. -/
structure Calm (w w' : World V) : Prop where
  lifecycle : w'.toLifecycle = w.toLifecycle
  asyncReadActive : w'.asyncReadActive = w.asyncReadActive
  items : w'.items.elems.map MonitorItem.calm = w.items.elems.map MonitorItem.calm

protected theorem Calm.refl (w : World V) : Calm w w := ⟨rfl, rfl, rfl⟩

protected theorem Calm.trans (h : Calm w w') (h' : Calm w' w'') : Calm w w'' :=
  ⟨h'.lifecycle.trans h.lifecycle, h'.asyncReadActive.trans h.asyncReadActive,
    h'.items.trans h.items⟩

theorem pushAll_calm (n : Notification V) (as : List Accessor) (w : World V) :
    Calm w (w.pushAll n as) := by
  induction as generalizing w with
  | nil => exact .refl w
  | cons a as ih =>
    have hpush : Calm w (w.push n a) := ⟨rfl, rfl, rfl⟩
    exact hpush.trans (ih _)

theorem mapSlots_calm {f : Nat → MonitorItem → MonitorItem}
    (hf : ∀ p item, (f p item).calm = item.calm) (w : World V) :
    Calm w { w with items := w.items.mapSlots f } := by
  refine ⟨rfl, rfl, List.ext_getElem? fun i => ?_⟩
  simp only [List.getElem?_map, SlotDeque.getElem?_mapSlots, Option.map_map, Function.comp_def, hf]

theorem responseHandler_calm (monId : Nat) (value : DataValue V) (w : World V) :
    Calm w (responseHandler monId value w) := by
  unfold responseHandler
  split
  · exact .refl w
  · split
    · exact ⟨rfl, rfl, rfl⟩
    · split
      · refine Calm.trans (mapSlots_calm (fun q item => ?_) w) (pushAll_calm _ _ _)
        split <;> rfl
      · exact .refl w

/-- A state callback on an open connection only notes the states. -/
theorem runCallback_open (w : World V) : runCallback w (.state .open .activated)
    = { w with channelState := .open, sessionState := .activated } := by
  simp [runCallback, stateCallback, World.isConnected]

theorem runCallback_calm {c : Callback V} (hc : c.isCalm = true) (w : World V) :
    Calm w (runCallback w c) := by
  cases c with
  | state channelState sessionState =>
    obtain ⟨rfl, rfl⟩ : channelState = .open ∧ sessionState = .activated := by
      simpa [Callback.isCalm] using hc
    exact runCallback_open w ▸ ⟨rfl, rfl, rfl⟩
  | inactivity subId => simp [Callback.isCalm] at hc
  | deleteSubscription subId => simp [Callback.isCalm] at hc
  | dataChange monId value => exact responseHandler_calm monId value w

theorem runCallbacks_calm {cs : List (Callback V)} (hcs : ∀ c ∈ cs, c.isCalm = true)
    (w : World V) : Calm w (runCallbacks cs w) := by
  induction cs generalizing w with
  | nil => exact .refl w
  | cons c cs ih =>
    exact (runCallback_calm (hcs c (List.mem_cons_self ..)) w).trans
      (ih (fun c' hc' => hcs c' (List.mem_cons_of_mem _ hc')) _)

theorem libraryCall_calm {cs : List (Callback V)} (hcs : ∀ c ∈ cs, c.isCalm = true)
    (e : Event V) (w : World V) : Calm w (libraryCall e cs w) := by
  have hrec : Calm w (w.record e) := ⟨rfl, rfl, rfl⟩
  exact hrec.trans (runCallbacks_calm hcs _)

end Calm

/-! ## The history grows -/

section History

variable (w : World V)

theorem record_history {e : Event V} (he : e.deletes = false) : Grows w (w.record e) :=
  ⟨[e], rfl, by simpa using he⟩

theorem libraryCall_history {e : Event V} (he : e.deletes = false) (cs : List (Callback V)) :
    Grows w (libraryCall e cs w) :=
  (record_history w he).trans (libraryCall_frame w e cs).grows

theorem removeSubscription_history (reply : Reply V UA_StatusCode) :
    Grows w (removeSubscription reply w) :=
  libraryCall_history w rfl _

theorem cleanUpSubscription_history (reply : Reply V UA_StatusCode) :
    Grows w (cleanUpSubscription reply w) := by
  unfold cleanUpSubscription
  split
  · exact removeSubscription_history w reply
  · exact .refl _

theorem requestSubscription_history (reply : Reply V CreateSubscriptionResponse) :
    Grows w (requestSubscription reply w).world := by
  unfold requestSubscription
  simp only
  split <;> exact libraryCall_history w rfl _

theorem createSubscription_history (r : Replies V) :
    Grows w (createSubscription r w).world :=
  (cleanUpSubscription_history w _).trans (requestSubscription_history _ _)

theorem ensureSubscription_history (r : Replies V) :
    Grows w (ensureSubscription r w).world := by
  unfold ensureSubscription
  split
  · exact .refl _
  · exact createSubscription_history w r

theorem monitoringAnswered_history (i : Nat) (browseName : String)
    (result : MonitoredItemCreateResult) :
    Grows w (monitoringAnswered i browseName result w) := by
  unfold monitoringAnswered
  split
  · exact .refl _
  · exact (handleException_frame w _).grows

theorem addMonitoredItem_history (reply : Reply V MonitoredItemCreateResult) (i : Nat) :
    Grows w (addMonitoredItem reply i w) := by
  refine (activateIfAsync_frame w i).grows.trans ?_
  rcases addMonitoredItem_cases w reply i with ⟨h, -⟩ | ⟨h, -⟩ | ⟨item, first, -, -, -, h⟩
  · exact h ▸ .refl _
  · exact h ▸ (fail_frame _ _).grows
  · exact h ▸ (libraryCall_history _ rfl _).trans (monitoringAnswered_history _ _ _ _)

theorem foldl_addMonitoredItem_history (replies : Nat → Reply V MonitoredItemCreateResult)
    (is : List Nat) :
    Grows w (is.foldl (fun w i => addMonitoredItem (replies i) i w) w) := by
  induction is generalizing w with
  | nil => exact .refl _
  | cons i is ih => exact (addMonitoredItem_history w _ i).trans (ih _)

theorem addMonitoredItems_history (replies : Nat → Reply V MonitoredItemCreateResult) :
    Grows w (addMonitoredItems replies w) :=
  foldl_addMonitoredItem_history w replies _

theorem Result.andThen_history {r : Result V} {f : World V → Result V}
    (hf : ∀ w, Grows w (f w).world) : Grows r.world (r.andThen f).world := by
  cases r with
  | returned w => exact hf w
  | threw message w => exact .refl _

theorem prepare_history (r : Replies V) : Grows w (prepare r w).world :=
  (createSubscription_history w r).trans
    (Result.andThen_history fun w => addMonitoredItems_history w _)

theorem activateSubscribed_history (r : Replies V) : Grows w (activateSubscribed r w) := by
  unfold activateSubscribed
  simp only
  split
  · exact addMonitoredItems_history { w with asyncReadActive := true } _
  · exact (activateItems_frame { w with asyncReadActive := true }).grows

theorem activate_history (r : Replies V) : Grows w (activate r w).world :=
  (ensureSubscription_history w r).trans
    (Result.andThen_history fun w => activateSubscribed_history w r)

theorem deactivate_history {removal : World V → World V}
    (hr : ∀ w, Grows w (removal w)) :
    Grows w (deactivate removal w) := by
  let w₁ : World V := { clearActive w with run := false, subscriptionActive := false }
  have h₁ : Grows w w₁ := (clearActive_frame w).grows
  unfold deactivate
  simp only
  split
  · split
    · exact h₁
    · exact h₁.trans (hr w₁)
  · exact h₁

theorem deactivateAllAndPushException_history {removal : World V → World V}
    (hr : ∀ w, Grows w (removal w)) (message : String) :
    Grows w (deactivateAllAndPushException removal message w) :=
  (handleException_frame w message).grows.trans (deactivate_history _ hr)

theorem start_history : Grows w (start w) := by
  unfold start
  split
  · split <;> exact .refl _
  · exact .refl _

theorem clientStep_history (iterate removal : Reply V UA_StatusCode) :
    Grows w (clientStep iterate removal w) := by
  have hrun := (runCallbacks_frame w iterate.callbacks).grows
  unfold clientStep
  split
  · exact .refl _
  · simp only
    split
    · exact hrun
    · split <;> exact hrun
  · split
    · exact removeSubscription_history w removal
    · exact .refl _
  · exact .refl _
  · exact .refl _
  · exact .refl _

theorem stopClientThread_history
    (steps : List (Reply V UA_StatusCode × Reply V UA_StatusCode)) :
    Grows w (stopClientThread steps w) := by
  induction steps generalizing w with
  | nil =>
    unfold stopClientThread
    split <;> exact .refl _
  | cons step steps ih =>
    unfold stopClientThread
    split
    · exact .refl _
    · exact .refl _
    · exact (clientStep_history w _ _).trans (ih _)

theorem subscribe_history (r : Replies V) (browseName : String) (node : UA_NodeId)
    (a : Accessor) : Grows w (subscribe r browseName node a w).world := by
  refine (record_history w (e := .subscribed a browseName) rfl).trans ?_
  unfold subscribe
  generalize w.record (.subscribed a browseName) = w₀
  simp only
  split
  · generalize w₀.items.pushBack _ = items
    split
    · exact (ensureSubscription_history { w₀ with items := items } r).trans
        (Result.andThen_history fun w => addMonitoredItems_history w r.createDataChange)
    · exact .refl _
  · split
    · exact .refl _
    · generalize w₀.items.modify _ _ = items
      split
      · exact (pushInitialValue_frame { w₀ with items := items } _ _ _).grows
      · exact .refl _

/-- The request of `unsubscribeItem` is the first thing it adds. -/
theorem unsubscribeItem_history (r : Replies V) (browseName : String) (id : Nat) :
    Grows (w.record (.deleteMonitoredItem w.subscriptionID id browseName
      r.deleteMonitoredItem.result)) (unsubscribeItem r browseName id w) := by
  let w₁ := libraryCall
    (.deleteMonitoredItem w.subscriptionID id browseName r.deleteMonitoredItem.result)
    r.deleteMonitoredItem.callbacks w
  let w₂ := removeSubscription r.subscriptionsDelete w₁
  have h₁ : Grows (w.record (.deleteMonitoredItem w.subscriptionID id browseName
    r.deleteMonitoredItem.result)) w₁ := (libraryCall_frame w _ _).grows
  unfold unsubscribeItem
  simp only
  split
  · exact (h₁.trans (removeSubscription_history w₁ _)).trans
      (stopClientThread_history { w₂ with run := false } _)
  · exact h₁

/-- `unsubscribe` asks for the deletion of a monitored item only when it removes an item that
has an id, on an open connection. -/
theorem unsubscribe_history (r : Replies V) (browseName : String) (a : Accessor) :
    Grows w (unsubscribe r browseName a w) ∨
      ∃ found ∈ w.find? browseName, found.2.accessors.length ≤ 1 ∧ found.2.id ≠ 0 ∧
        w.isConnected = true ∧
        Grows (w.record (.deleteMonitoredItem w.subscriptionID found.2.id browseName
          r.deleteMonitoredItem.result)) (unsubscribe r browseName a w) := by
  unfold unsubscribe
  split
  · exact .inl (.refl _)
  · rename_i i item hfind
    split
    · split <;> exact .inl (.refl _)
    · rename_i hlast
      simp only
      split
      · rename_i hid
        refine .inr ⟨(i, item), hfind, Nat.le_of_not_lt hlast, hid.1, hid.2, ?_⟩
        exact unsubscribeItem_history { w with
          subscriptionMap := w.subscriptionMap.erase item.id
          items := w.items.erase i } _ _ _
      · exact .inl (.refl _)

theorem resetClient_history (r : Replies V) : Grows w (resetClient r w) := by
  let w₁ := deactivate (removeSubscription r.subscriptionsDelete) w
  have h₁ : Grows w w₁ := deactivate_history w fun w => removeSubscription_history w _
  let w₂ := stopClientThread r.clientSteps (resetMonitoredItems w₁)
  have h₂ : Grows w₁ w₂ := stopClientThread_history (resetMonitoredItems w₁) _
  unfold resetClient
  split
  · exact (h₁.trans h₂).trans (runCallbacks_frame w₂ _).grows
  · exact (runCallbacks_frame w _).grows

theorem connect_history (reset r : Replies V) :
    Grows w (connect reset r w).world := by
  let w₁ := runCallbacks r.connect.callbacks (resetClient reset w)
  have h₁ : Grows w w₁ :=
    (resetClient_history w reset).trans (runCallbacks_frame _ r.connect.callbacks).grows
  unfold connect
  simp only
  split
  · split
    · exact h₁.trans (prepare_history w₁ r)
    · exact h₁
  · exact h₁

theorem openDevice_history (stop reset r : Replies V) :
    Grows w (openDevice stop reset r w).world := by
  unfold openDevice
  refine Grows.trans ?_ (Result.andThen_history fun w => ?_)
  · split
    · exact .refl _
    · split
      · exact (stopClientThread_history w _).trans (connect_history _ _ _)
      · exact connect_history w _ _
  · split <;> exact .refl _

theorem activateAsyncRead_history (r : Replies V) :
    Grows w (activateAsyncRead r w) := by
  unfold activateAsyncRead
  split
  · have h := activate_history { w with subscriptionManager := true } r
    split
    · rename_i message w' heq
      rw [heq] at h
      exact h
    · rename_i w' heq
      rw [heq] at h
      split
      · exact h.trans (start_history w')
      · exact h
  · exact .refl _

theorem setException_history (r : Replies V) : Grows w (setException r w) := by
  unfold setException
  simp only
  split
  · exact deactivateAllAndPushException_history { w with hasActiveException := true }
      (fun w => removeSubscription_history w _) _
  · exact .refl _

theorem constructAccessor_history (r : Replies V) (browseName : String) (node : UA_NodeId)
    (a : Accessor) : Grows w (constructAccessor r browseName node a w).world := by
  refine (subscribe_history { w with subscriptionManager := true } r browseName node a).trans
    (Result.andThen_history fun w => ?_)
  split
  · exact start_history w
  · exact .refl _

/-- **Every call extends the history**, and only `unsubscribe` deletes monitored items. -/
theorem Call.exec_history (c : Call V) :
    Grows w (c.exec w).world ∨ ∃ r browseName a, c = .unsubscribe r browseName a := by
  cases c with
  | unsubscribe r name a => exact .inr ⟨r, name, a, rfl⟩
  | connect reset r => exact .inl (connect_history w reset r)
  | openDevice stop reset r => exact .inl (openDevice_history w stop reset r)
  | closeDevice r => exact .inl (resetClient_history { w with opened := false } r)
  | activateAsyncRead r => exact .inl (activateAsyncRead_history w r)
  | setException r => exact .inl (setException_history w r)
  | constructAccessor r name node a => exact .inl (constructAccessor_history w r name node a)
  | subscribe r name node a => exact .inl (subscribe_history w r name node a)
  | activate r => exact .inl (activate_history w r)
  | deactivate r => exact .inl (deactivate_history w fun w => removeSubscription_history w _)
  | deactivateAllAndPushException r message =>
    exact .inl (deactivateAllAndPushException_history w
      (fun w => removeSubscription_history w _) _)
  | setExternalError name a => exact .inl (setExternalError_frame w name a).grows
  | prepare r => exact .inl (prepare_history w r)
  | createSubscription r => exact .inl (createSubscription_history w r)
  | addMonitoredItems r => exact .inl (addMonitoredItems_history w _)
  | resetMonitoredItems => exact .inl (.refl _)
  | removeSubscription r => exact .inl (removeSubscription_history w _)
  | start => exact .inl (start_history w)
  | stopClientThread r => exact .inl (stopClientThread_history w _)
  | clientStep iterate removal => exact .inl (clientStep_history w iterate removal)
  | popNotification a => exact .inl (popNotification_frame w a).grows
  | ownTransfer a data => exact .inl (ownTransfer_frame w a data).grows
  | callbacks cs => exact .inl (runCallbacks_frame w cs).grows

end History

end OpcUaBackend
