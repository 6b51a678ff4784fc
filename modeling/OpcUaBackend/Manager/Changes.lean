import Mathlib.Logic.Relation
import OpcUaBackend.Manager.Frames

/-!
# What the manager does to its accessors

Whatever a call of the backend or of the manager does besides adding and removing accessors is
a sequence of changes of four kinds. A quiet one changes flags of the manager, marks of items and
the connection, and deactivates items. An exception goes to an accessor of an active item. A data
value goes to all accessors of an active item. And items are activated, of which the history has
an event. None of them changes an accessor list.

What is to be known about accessor lists, queues and activations in every run is then proved for
four changes, and not for each function.

## Main definitions

* `World.lists`: the accessor lists under the names of their items
* `Quiet`, `Change`, `Changes`: the changes and their sequences

## Main results

* `Changes.lists`: changes keep the accessor lists
* `Call.exec_changes`: a call that is about no accessor is a sequence of changes
-/

namespace OpcUaBackend

open Foundation Relation

variable {V : Type} {w w' w'' : World V}

/-! ## Changes -/

/-- The name and the accessors of an item. -/
def MonitorItem.listing (item : MonitorItem) : String × List Accessor :=
  (item.browseName, item.accessors)

/-- The accessor lists, under the names of their items. -/
def World.lists (w : World V) : List (String × List Accessor) :=
  w.items.elems.map MonitorItem.listing

/-- The event is a push, an activation, a subscription or a transfer. -/
def Event.isSignal : Event V → Bool
  | .pushed _ _ => true
  | .activated _ _ _ => true
  | .subscribed _ _ => true
  | .transferred _ => true
  | _ => false

/-- The fault is that an accessor is missing in a list. -/
def Fault.isMissing : Fault → Bool
  | .noAccessor => true
  | .eraseAtEnd => true
  | _ => false

/-- Nothing is pushed, activated or subscribed, and no accessor list changes. An accessor is
missing only where a list is empty. -/
structure Quiet (w w' : World V) : Prop where
  lists : w'.lists = w.lists
  active : ∀ (i : Nat) (item' : MonitorItem), w'.items.elems[i]? = some item' → item'.active = true →
    ∃ item : MonitorItem, w.items.elems[i]? = some item ∧ item.active = true
  accessors : w'.accessors = w.accessors
  history : Extends (fun e => e.isSignal = false) w.history w'.history
  fault : ∀ f, w'.fault = some f → f.isMissing = true →
    w.fault = some f ∨ ∃ item ∈ w.items.elems, item.accessors = []

/-- Items become active. -/
structure Activates (es : List (Event V)) (w w' : World V) : Prop where
  lists : w'.lists = w.lists
  active : ∀ (i : Nat) (item' : MonitorItem), w'.items.elems[i]? = some item' → item'.active = true →
    (∃ item : MonitorItem, w.items.elems[i]? = some item ∧ item.active = true) ∨
      ∃ flag, .activated item'.browseName flag false ∈ es
  accessors : w'.accessors = w.accessors
  history : w'.history = es ++ w.history
  events : ∀ e ∈ es, ∃ browseName flag was, e = .activated browseName flag was
  fault : w'.fault = w.fault

inductive Change : World V → World V → Prop
  | quiet {w w' : World V} : Quiet w w' → Change w w'
  | alarm {w : World V} {item : MonitorItem} {a : Accessor} (message : String) :
      item ∈ w.items.elems → item.active = true →
      a ∈ item.accessors → Change w (w.push (.exception message) a)
  | deliver {w : World V} {item : MonitorItem} (value : DataValue V) :
      item ∈ w.items.elems → item.active = true →
      Change w (w.pushAll (.data value) item.accessors)
  | activate {w w' : World V} {es : List (Event V)} : Activates es w w' → Change w w'

/-- A sequence of changes. -/
abbrev Changes : World V → World V → Prop := ReflTransGen Change

theorem Quiet.changes (h : Quiet w w') : Changes w w' := .single (.quiet h)

@[simp] theorem lists_push (n : Notification V) (a : Accessor) : (w.push n a).lists = w.lists := rfl

@[simp] theorem pushAll_lists (n : Notification V) (as : List Accessor) (w : World V) :
    (w.pushAll n as).lists = w.lists := by
  induction as generalizing w with
  | nil => rfl
  | cons a as ih => exact (ih (w.push n a)).trans (lists_push n a)

@[simp] theorem pushAll_fault (n : Notification V) (as : List Accessor) (w : World V) :
    (w.pushAll n as).fault = w.fault := by
  induction as generalizing w with
  | nil => rfl
  | cons a as ih => exact ih (w.push n a)

theorem handleException_fault (message : String) (w : World V) :
    (handleException message w).fault = w.fault := by
  rw [handleException, pushAll_fault]

theorem activateIfAsync_fault (i : Nat) (w : World V) :
    (activateIfAsync i w).fault = w.fault := by
  unfold activateIfAsync activateItem
  split
  · split <;> rfl
  · rfl

theorem monitoringAnswered_fault (i : Nat) (browseName : String)
    (result : MonitoredItemCreateResult) (w : World V) :
    (monitoringAnswered i browseName result w).fault = w.fault := by
  unfold monitoringAnswered
  split
  · rfl
  · exact handleException_fault _ w

theorem Change.lists (h : Change w w') : w'.lists = w.lists := by
  cases h with
  | quiet h => exact h.lists
  | alarm => rfl
  | deliver => exact pushAll_lists _ _ _
  | activate h => exact h.lists

/-- **No change is one of the accessor lists.** -/
theorem Changes.lists (h : Changes w w') : w'.lists = w.lists := by
  induction h with
  | refl => rfl
  | tail _ hm ih => exact hm.lists.trans ih

/-- The item at the same position before a step that keeps the lists. -/
theorem exists_item_of_lists (hlists : w'.lists = w.lists) {i : Nat} {item' : MonitorItem}
    (hi : w'.items.elems[i]? = some item') :
    ∃ item ∈ w.items.elems, w.items.elems[i]? = some item ∧
      item'.browseName = item.browseName ∧ item'.accessors = item.accessors := by
  obtain ⟨item, hitem, hlisting⟩ := SlotDeque.exists_getElem?_of_map_eq hlists hi
  obtain ⟨hname, haccessors⟩ := Prod.mk.inj hlisting
  exact ⟨item, List.mem_of_getElem? hitem, hitem, hname, haccessors⟩

/-! ## Quiet steps -/

/-- A step that changes neither items nor accessors. -/
theorem changes_of_items (hitems : w'.items = w.items) (haccessors : w'.accessors = w.accessors)
    (hhistory : w'.history = w.history) (hfault : w'.fault = w.fault) : Changes w w' :=
  Quiet.changes
    { lists := by rw [World.lists, hitems, World.lists]
      active := fun i item' hi hact => ⟨item', hitems ▸ hi, hact⟩
      accessors := haccessors
      history := ⟨[], hhistory, by simp⟩
      fault := fun f hf _ => .inl (hfault ▸ hf) }

section QuietSteps

variable (w)

theorem record_quiet {e : Event V} (he : e.isSignal = false) : Quiet w (w.record e) where
  lists := rfl
  active _ item' hi hact := ⟨item', hi, hact⟩
  accessors := rfl
  history := ⟨[e], rfl, by simpa using he⟩
  fault _ hf _ := .inl hf

theorem fail_fault {f g : Fault} (h : (w.fail f).fault = some g) : w.fault = some g ∨ f = g := by
  have h' : (w.fault <|> some f) = some g := h
  cases hw : w.fault with
  | none => exact .inr (by simpa [hw] using h')
  | some f' => exact .inl (by simpa [hw] using h')

theorem fail_quiet {f : Fault}
    (hf : f.isMissing = true → ∃ item ∈ w.items.elems, item.accessors = []) :
    Quiet w (w.fail f) where
  lists := rfl
  active _ item' hi hact := ⟨item', hi, hact⟩
  accessors := rfl
  history := ⟨[], rfl, by simp⟩
  fault g hg hmissing := by
    rcases fail_fault w hg with hold | rfl
    · exact .inl hold
    · exact .inr (hf hmissing)

theorem fail_changes {f : Fault} (hf : f.isMissing = false) : Changes w (w.fail f) :=
  (fail_quiet w fun h => absurd (hf.symm.trans h) Bool.false_ne_true).changes

/-- Items are changed in their slots, and none becomes active. -/
theorem mapSlots_quiet {f : Nat → MonitorItem → MonitorItem}
    (hf : ∀ p item, (f p item).listing = item.listing)
    (hactive : ∀ p item, (f p item).active = true → item.active = true) :
    Quiet w { w with items := w.items.mapSlots f } where
  lists := by
    refine List.ext_getElem? fun i => ?_
    simp only [World.lists, List.getElem?_map, SlotDeque.getElem?_mapSlots, Option.map_map,
      Function.comp_def, hf]
  active i item' hi hact := by
    rw [SlotDeque.getElem?_mapSlots] at hi
    obtain ⟨item, hitem, rfl⟩ := Option.map_eq_some_iff.mp hi
    exact ⟨item, hitem, hactive _ _ hact⟩
  accessors := rfl
  history := ⟨[], rfl, by simp⟩
  fault _ hf _ := .inl hf

theorem map_quiet {f : MonitorItem → MonitorItem} (hf : ∀ item, (f item).listing = item.listing)
    (hactive : ∀ item, (f item).active = true → item.active = true) :
    Quiet w { w with items := w.items.map f } where
  lists := by
    show (w.items.elems.map f).map MonitorItem.listing = _
    rw [List.map_map]
    exact List.map_congr_left fun item _ => hf item
  active i item' hi hact := by
    rw [SlotDeque.elems_map, List.getElem?_map] at hi
    obtain ⟨item, hitem, rfl⟩ := Option.map_eq_some_iff.mp hi
    exact ⟨item, hitem, hactive _ hact⟩
  accessors := rfl
  history := ⟨[], rfl, by simp⟩
  fault _ hf _ := .inl hf

theorem modify_lists {f : MonitorItem → MonitorItem} (hf : ∀ item, (f item).listing = item.listing)
    (i : Nat) : World.lists { w with items := w.items.modify i f } = w.lists :=
  SlotDeque.map_elems_modify _ i hf

theorem modify_quiet {f : MonitorItem → MonitorItem} (hf : ∀ item, (f item).listing = item.listing)
    (hactive : ∀ item, (f item).active = true → item.active = true) (i : Nat) :
    Quiet w { w with items := w.items.modify i f } where
  lists := modify_lists w hf i
  active j item' hj hact := by
    by_cases hji : j = i
    · cases hitem : w.items.elems[j]? with
      | none => simp [SlotDeque.elems_modify, List.getElem?_modify, hitem] at hj
      | some item =>
        rw [hji, SlotDeque.getElem?_modify_self w.items f (hji ▸ hitem), Option.some_inj] at hj
        exact ⟨item, rfl, hactive item (hj ▸ hact)⟩
    · rw [SlotDeque.getElem?_modify_of_ne w.items f hji] at hj
      exact ⟨item', hj, hact⟩
  accessors := rfl
  history := ⟨[], rfl, by simp⟩
  fault _ hf _ := .inl hf

end QuietSteps

/-! ## Callbacks -/

section Callbacks

variable (w)

theorem alarms_changes (message : String) {as : List Accessor}
    (has : ∀ a ∈ as, ∃ item ∈ w.items.elems, item.active = true ∧ a ∈ item.accessors) :
    Changes w (w.pushAll (.exception message) as) := by
  induction as generalizing w with
  | nil => exact .refl
  | cons a as ih =>
    obtain ⟨item, hitem, hact, ha⟩ := has a (List.mem_cons_self ..)
    exact .head (.alarm message hitem hact ha)
      (ih _ fun b hb => has b (List.mem_cons_of_mem _ hb))

theorem handleException_changes (message : String) : Changes w (handleException message w) := by
  refine .head (.quiet (map_quiet w (f := MonitorItem.raise) (fun item => ?_) fun item => ?_))
    (alarms_changes _ message fun a ha => ?_)
  · unfold MonitorItem.raise
    split <;> rfl
  · unfold MonitorItem.raise
    split <;> exact id
  · obtain ⟨item, hitem, ha⟩ := List.mem_flatMap.mp ha
    obtain ⟨hmem, hraises⟩ := List.mem_filter.mp hitem
    have hact : item.active = true := (Bool.and_eq_true_iff.mp hraises).1
    refine ⟨item.raise, List.mem_map_of_mem hmem, ?_, ?_⟩
    · rwa [MonitorItem.raise, if_pos hraises]
    · rwa [MonitorItem.raise, if_pos hraises]

theorem clearActive_changes : Changes w (clearActive w) := by
  unfold clearActive
  simp only
  generalize w.subscriptionMap.entries.map (·.2) = targets
  have hclear : ∀ w : World V, Quiet w { w with
      items := w.items.mapSlots fun p item =>
        if p ∈ targets then { item with active := false } else item } := by
    intro w
    refine mapSlots_quiet w (fun p item => ?_) fun p item => ?_
    · split <;> rfl
    · split
      · intro h
        cases h
      · exact id
  split
  · exact (hclear w).changes
  · exact (fail_changes w rfl).trans (hclear _).changes

/-- `deactivate` makes changes when what it does under `client_lock` does. -/
theorem deactivate_changes {removal : World V → World V} (hr : ∀ w, Changes w (removal w)) :
    Changes w (deactivate removal w) := by
  let w₁ : World V := { clearActive w with run := false }
  let w₂ : World V := { w₁ with subscriptionActive := false }
  have h₁ : Changes w w₁ := (clearActive_changes w).trans (changes_of_items rfl rfl rfl rfl)
  have h₂ : Changes w w₂ := h₁.trans (changes_of_items rfl rfl rfl rfl)
  unfold deactivate
  simp only
  split
  · split
    · exact h₂.trans (changes_of_items rfl rfl rfl rfl)
    · exact (h₂.trans (hr w₂)).trans (changes_of_items rfl rfl rfl rfl)
  · exact h₁.trans (changes_of_items rfl rfl rfl rfl)

theorem deactivateAllAndPushException_changes {removal : World V → World V}
    (hr : ∀ w, Changes w (removal w)) (message : String) :
    Changes w (deactivateAllAndPushException removal message w) :=
  (handleException_changes w message).trans (deactivate_changes _ hr)

theorem responseHandler_changes (monId : Nat) (value : DataValue V) :
    Changes w (responseHandler monId value w) := by
  unfold responseHandler
  split
  · exact .refl
  · rename_i p _
    split
    · exact fail_changes w rfl
    · rename_i item hitem
      split
      · rename_i hact
        have hflag : Quiet w { w with
            items := w.items.mapSlots fun q item =>
              if q = p then { item with hasException := false } else item } := by
          refine mapSlots_quiet w (fun q item => ?_) fun q item => ?_
          · split <;> rfl
          · split <;> exact id
        -- the item is delivered to as it is without its flag
        obtain ⟨i, rfl, hi⟩ := (SlotDeque.get?_eq_some _).mp hitem
        have hmem : { item with hasException := false } ∈ (w.items.mapSlots fun q item =>
            if q = w.items.slot i then { item with hasException := false } else item).elems := by
          refine List.mem_of_getElem? (i := i) ?_
          rw [SlotDeque.getElem?_mapSlots, hi, Option.map_some, if_pos rfl]
        exact hflag.changes.trans
          (.single (@Change.deliver V _ { item with hasException := false } value hmem hact))
      · exact .refl

theorem runCallback_changes (c : Callback V) : Changes w (runCallback w c) := by
  have hall (message : String) (w : World V) :
      Changes w (deactivateAllAndPushException (·.fail .clientLockDeadlock) message w) :=
    deactivateAllAndPushException_changes w (fun w => fail_changes w rfl) message
  cases c with
  | state c s =>
    have hset : Changes w { w with channelState := c, sessionState := s } :=
      (changes_of_items rfl rfl rfl rfl)
    unfold runCallback stateCallback
    simp only
    split
    · exact hset.trans (hall _ _)
    · exact hset
  | inactivity subId =>
    unfold runCallback inactivityCallback
    simp only
    split
    · exact (hall _ w).trans (changes_of_items rfl rfl rfl rfl)
    · exact .refl
  | deleteSubscription subId => exact changes_of_items rfl rfl rfl rfl
  | dataChange monId value => exact responseHandler_changes w monId value

theorem runCallbacks_changes (cs : List (Callback V)) : Changes w (runCallbacks cs w) := by
  induction cs generalizing w with
  | nil => exact .refl
  | cons c cs ih => exact (runCallback_changes w c).trans (ih _)

theorem libraryCall_changes {e : Event V} (he : e.isSignal = false) (cs : List (Callback V)) :
    Changes w (libraryCall e cs w) :=
  (record_quiet w he).changes.trans (runCallbacks_changes _ cs)

end Callbacks

/-! ## The subscription -/

section Subscription

variable (w)

theorem resetMonitoredItems_changes : Changes w (resetMonitoredItems w) :=
  (map_quiet w (f := fun item => { item with isMonitored := false }) (fun _ => rfl)
    fun _ => id).changes.trans (changes_of_items rfl rfl rfl rfl)

theorem removeSubscription_changes (reply : Reply V UA_StatusCode) :
    Changes w (removeSubscription reply w) := by
  let w₁ := libraryCall (.subscriptionsDelete w.subscriptionID reply.result) reply.callbacks w
  have h₁ : Changes w w₁ := libraryCall_changes w rfl _
  have h₂ : Changes w₁ { w₁ with subscriptionID := 0 } := changes_of_items rfl rfl rfl rfl
  exact (h₁.trans h₂).trans (resetMonitoredItems_changes _)

theorem cleanUpSubscription_changes (reply : Reply V UA_StatusCode) :
    Changes w (cleanUpSubscription reply w) := by
  unfold cleanUpSubscription
  split
  · exact removeSubscription_changes w reply
  · exact .refl

theorem requestSubscription_changes (reply : Reply V CreateSubscriptionResponse) :
    Changes w (requestSubscription reply w).world := by
  have hcall := libraryCall_changes w
    (e := .subscriptionsCreate w.publishingInterval reply.result) rfl reply.callbacks
  unfold requestSubscription
  simp only
  split
  · exact hcall.trans (changes_of_items rfl rfl rfl rfl)
  · exact hcall

theorem createSubscription_changes (r : Replies V) :
    Changes w (createSubscription r w).world :=
  (cleanUpSubscription_changes w _).trans (requestSubscription_changes _ _)

theorem ensureSubscription_changes (r : Replies V) :
    Changes w (ensureSubscription r w).world := by
  unfold ensureSubscription
  split
  · exact .refl
  · exact createSubscription_changes w r

/-- An item becomes active, and the history has it. -/
theorem activateItem_changes (i : Nat) : Changes w (activateItem i w) := by
  let set : MonitorItem → MonitorItem := fun item => { item with active := true }
  have hlists : World.lists { w with items := w.items.modify i set } = w.lists :=
    modify_lists w (f := set) (fun _ => rfl) i
  unfold activateItem
  split
  · exact .refl
  · rename_i item hitem
    let e : Event V := .activated item.browseName item.hasException item.active
    have hevents : ∀ e' ∈ [e], ∃ browseName flag was, e' = .activated browseName flag was :=
      fun e' he => ⟨_, _, _, List.mem_singleton.mp he⟩
    suffices h : Activates [e] w (World.record e { w with items := w.items.modify i set }) from
      .single (.activate h)
    refine ⟨hlists, fun j item' hj hact' => ?_, rfl, rfl, hevents, rfl⟩
    have hj' : (w.items.modify i set).elems[j]? = some item' := hj
    by_cases hji : j = i
    · rw [hji, SlotDeque.getElem?_modify_self w.items _ hitem, Option.some_inj] at hj'
      cases hwas : item.active with
      -- the item was active before
      | true => exact .inl ⟨item, hji ▸ hitem, hwas⟩
      | false => exact .inr ⟨item.hasException, by simp [← hj', set, e, hwas]⟩
    · rw [SlotDeque.getElem?_modify_of_ne w.items _ hji] at hj'
      exact .inl ⟨item', hj', hact'⟩

theorem activateIfAsync_changes (i : Nat) : Changes w (activateIfAsync i w) := by
  unfold activateIfAsync
  split
  · exact activateItem_changes w i
  · exact .refl

theorem activateItems_changes : Changes w (activateItems w) := by
  refine .single (.activate ⟨?_, fun i item' hi hact => ?_, rfl, rfl, fun e he => ?_, rfl⟩)
  · exact (List.map_map ..).trans (List.map_congr_left fun _ _ => rfl)
  · have hi' : (w.items.elems.map fun item => { item with active := true })[i]? = some item' := hi
    obtain ⟨item, hitem, rfl⟩ := Option.map_eq_some_iff.mp (List.getElem?_map ▸ hi')
    cases hwas : item.active with
    | true => exact .inl ⟨item, hitem, hwas⟩
    | false =>
      refine .inr ⟨item.hasException, List.mem_reverse.mpr (List.mem_map.mpr ⟨item, ?_, ?_⟩)⟩
      · exact List.mem_of_getElem? hitem
      · rw [hwas]
  · obtain ⟨item, -, rfl⟩ := List.mem_map.mp (List.mem_reverse.mp he)
    exact ⟨_, _, _, rfl⟩

theorem monitoringAnswered_changes (i : Nat) (browseName : String)
    (result : MonitoredItemCreateResult) :
    Changes w (monitoringAnswered i browseName result w) := by
  unfold monitoringAnswered
  split
  · exact (modify_quiet w (f := MonitorItem.monitor result.monitoredItemId) (fun _ => rfl)
      (fun _ => id) i).changes.trans (changes_of_items rfl rfl rfl rfl)
  · exact handleException_changes w _

theorem addMonitoredItem_changes (reply : Reply V MonitoredItemCreateResult) (i : Nat) :
    Changes w (addMonitoredItem reply i w) := by
  refine (activateIfAsync_changes w i).trans ?_
  rcases addMonitoredItem_cases w reply i with ⟨h, -⟩ | ⟨h, hempty⟩ | ⟨item, first, -, -, -, h⟩
  · exact h ▸ .refl
  · exact h ▸ (fail_quiet _ fun _ => hempty).changes
  · exact h ▸ (libraryCall_changes _ rfl _).trans (monitoringAnswered_changes _ _ _ _)

theorem addMonitoredItems_changes (replies : Nat → Reply V MonitoredItemCreateResult) :
    Changes w (addMonitoredItems replies w) := by
  unfold addMonitoredItems
  generalize List.range w.items.size = is
  induction is generalizing w with
  | nil => exact .refl
  | cons i is ih => exact (addMonitoredItem_changes w _ i).trans (ih _)

theorem andThen_changes {r : Result V} {f : World V → Result V}
    (hf : ∀ w, Changes w (f w).world) : Changes r.world (r.andThen f).world := by
  cases r with
  | returned w => exact hf w
  | threw message w => exact .refl

theorem prepare_changes (r : Replies V) : Changes w (prepare r w).world :=
  (createSubscription_changes w r).trans
    (andThen_changes fun w => addMonitoredItems_changes w _)

theorem activateSubscribed_changes (r : Replies V) : Changes w (activateSubscribed r w) := by
  have hset : Changes w { w with asyncReadActive := true } := changes_of_items rfl rfl rfl rfl
  unfold activateSubscribed
  simp only
  split
  · exact hset.trans (addMonitoredItems_changes _ _)
  · exact hset.trans (activateItems_changes _)

theorem activate_changes (r : Replies V) : Changes w (activate r w).world :=
  (ensureSubscription_changes w r).trans
    (andThen_changes fun w => activateSubscribed_changes w r)

theorem deactivateCall_changes (r : Replies V) :
    Changes w (deactivate (removeSubscription r.subscriptionsDelete) w) :=
  deactivate_changes w fun w => removeSubscription_changes w _

end Subscription

/-! ## The client thread and the backend -/

section Backend

variable (w)

theorem start_changes : Changes w (start w) := by
  unfold start
  split
  · simp only
    split
    · exact (fail_changes w rfl).trans (changes_of_items rfl rfl rfl rfl)
    · exact changes_of_items rfl rfl rfl rfl
  · exact changes_of_items rfl rfl rfl rfl

theorem clientStep_changes (iterate removal : Reply V UA_StatusCode) :
    Changes w (clientStep iterate removal w) := by
  have hrun := runCallbacks_changes w iterate.callbacks
  unfold clientStep
  split
  · exact changes_of_items rfl rfl rfl rfl
  · simp only
    split
    · exact hrun.trans (changes_of_items rfl rfl rfl rfl)
    · split <;> exact hrun.trans (changes_of_items rfl rfl rfl rfl)
  · split
    · exact (removeSubscription_changes w removal).trans (changes_of_items rfl rfl rfl rfl)
    · exact changes_of_items rfl rfl rfl rfl
  · exact changes_of_items rfl rfl rfl rfl
  · exact .refl
  · exact .refl

theorem stopClientThread_changes
    (steps : List (Reply V UA_StatusCode × Reply V UA_StatusCode)) :
    Changes w (stopClientThread steps w) := by
  induction steps generalizing w with
  | nil =>
    unfold stopClientThread
    split
    · exact .refl
    · exact changes_of_items rfl rfl rfl rfl
    · exact fail_changes w rfl
  | cons step steps ih =>
    unfold stopClientThread
    split
    · exact .refl
    · exact changes_of_items rfl rfl rfl rfl
    · exact (clientStep_changes w _ _).trans (ih _)

theorem unsubscribeItem_changes (r : Replies V) (browseName : String) (id : Nat) :
    Changes w (unsubscribeItem r browseName id w) := by
  let w₁ := libraryCall
    (.deleteMonitoredItem w.subscriptionID id browseName r.deleteMonitoredItem.result)
    r.deleteMonitoredItem.callbacks w
  have h₁ : Changes w w₁ := libraryCall_changes w rfl _
  let w₂ := removeSubscription r.subscriptionsDelete w₁
  have h₂ : Changes w₁ { w₂ with run := false } :=
    (removeSubscription_changes w₁ _).trans (changes_of_items rfl rfl rfl rfl)
  unfold unsubscribeItem
  simp only
  split
  · exact (h₁.trans h₂).trans (stopClientThread_changes _ _)
  · exact h₁

theorem setExternalError_changes (browseName : String) (a : Accessor) :
    Changes w (setExternalError browseName a w) := by
  unfold setExternalError
  split
  · exact .refl
  · exact (modify_quiet w (f := fun item => { item with hasException := true }) (fun _ => rfl)
      (fun _ => id) _).changes.trans (record_quiet _ rfl).changes

theorem resetClient_changes (r : Replies V) : Changes w (resetClient r w) := by
  unfold resetClient
  simp only
  split
  · exact (((deactivateCall_changes w r).trans (resetMonitoredItems_changes _)).trans
      (stopClientThread_changes _ _)).trans (runCallbacks_changes _ _)
  · exact runCallbacks_changes w _

theorem connect_changes (reset r : Replies V) : Changes w (connect reset r w).world := by
  have hreset := (resetClient_changes w reset).trans
    (runCallbacks_changes _ r.connect.callbacks)
  unfold connect
  simp only
  split
  · split
    · exact hreset.trans (prepare_changes _ r)
    · exact hreset
  · exact hreset

theorem openDevice_changes (stop reset r : Replies V) :
    Changes w (openDevice stop reset r w).world := by
  unfold openDevice
  refine ReflTransGen.trans ?_ (andThen_changes fun w => ?_)
  · split
    · exact .refl
    · simp only
      split
      · exact (stopClientThread_changes w _).trans (connect_changes _ _ _)
      · exact connect_changes w _ _
  · split
    · exact changes_of_items rfl rfl rfl rfl
    · exact .refl

theorem closeDevice_changes (r : Replies V) : Changes w (closeDevice r w) := by
  have hset : Changes w { w with opened := false } := changes_of_items rfl rfl rfl rfl
  exact hset.trans (resetClient_changes _ r)

theorem activateAsyncRead_changes (r : Replies V) : Changes w (activateAsyncRead r w) := by
  have hset : Changes w { w with subscriptionManager := true } := changes_of_items rfl rfl rfl rfl
  have hact := hset.trans (activate_changes _ r)
  unfold activateAsyncRead
  split
  · split
    · rename_i message w' heq
      rw [heq] at hact
      exact hact.trans (fail_changes w' rfl)
    · rename_i w' heq
      rw [heq] at hact
      split
      · exact hact.trans (start_changes w')
      · exact hact
  · exact .refl

theorem setException_changes (r : Replies V) : Changes w (setException r w) := by
  have hset : Changes w { w with hasActiveException := true } := changes_of_items rfl rfl rfl rfl
  unfold setException
  simp only
  split
  · exact hset.trans (deactivateAllAndPushException_changes _
      (fun w => removeSubscription_changes w _) _)
  · exact hset

/-- The call subscribes or unsubscribes an accessor, or an accessor takes an element from its
queue or makes a transfer of its own. -/
def Call.isAboutAccessor : Call V → Bool
  | .constructAccessor .. => true
  | .subscribe .. => true
  | .unsubscribe .. => true
  | .popNotification .. => true
  | .ownTransfer .. => true
  | _ => false

/-- **Every other call is a sequence of changes.** -/
theorem Call.exec_changes {c : Call V} (hc : c.isAboutAccessor = false) :
    Changes w (c.exec w).world := by
  cases c with
  | constructAccessor => cases hc
  | subscribe => cases hc
  | unsubscribe => cases hc
  | popNotification => cases hc
  | ownTransfer => cases hc
  | connect reset r => exact connect_changes w reset r
  | openDevice stop reset r => exact openDevice_changes w stop reset r
  | closeDevice r => exact closeDevice_changes w r
  | activateAsyncRead r => exact activateAsyncRead_changes w r
  | setException r => exact setException_changes w r
  | activate r => exact activate_changes w r
  | deactivate r => exact deactivateCall_changes w r
  | deactivateAllAndPushException r message =>
    exact deactivateAllAndPushException_changes w (fun w => removeSubscription_changes w _) message
  | setExternalError name a => exact setExternalError_changes w name a
  | prepare r => exact prepare_changes w r
  | createSubscription r => exact createSubscription_changes w r
  | addMonitoredItems r => exact addMonitoredItems_changes w _
  | resetMonitoredItems => exact resetMonitoredItems_changes w
  | removeSubscription r => exact removeSubscription_changes w _
  | start => exact start_changes w
  | stopClientThread r => exact stopClientThread_changes w _
  | clientStep iterate removal => exact clientStep_changes w iterate removal
  | callbacks cs => exact runCallbacks_changes w cs

end Backend

end OpcUaBackend
