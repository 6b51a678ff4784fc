import OpcUaBackend.Threads.Locks
import OpcUaBackend.Threads.Silence
import OpcUaBackend.Threads.Stages

/-!
# Notifications of a new registration

The library knows the id of a monitored item when the request returns, and the map knows it
after a further critical section. A notification that is dispatched in between, by the client
thread, is dropped. In runs without such a dispatch, and in which a removal leaves the addresses
of the other items, every notification for a registered id goes to all accessors of its item.

## Main definitions

* `World.Mapped`: the map leads from an id to an active item of the name
* `Prompt`: the condition on a step
* `Process.Consistent`, `Deliverable`: the invariant
* `Delivers`: what a step does with a notification

## Main results

* `Op.exec_retains`: what the operations leave of registered items
* `Deliverable.step`: what every step under the condition preserves
* `reach_delivers`: no notification for a registered item is lost
-/

namespace OpcUaBackend

open Foundation

variable {V : Type}

/-! ## The condition -/

/-- The item at a position has the name. -/
def World.NameAt (w : World V) (i : Nat) (browseName : String) : Prop :=
  ∃ item, w.items.elems[i]? = some item ∧ item.browseName = browseName

/-- The item at a position has the name, and is active. -/
def World.ActiveAt (w : World V) (i : Nat) (browseName : String) : Prop :=
  ∃ item, w.items.elems[i]? = some item ∧ item.browseName = browseName ∧ item.active = true

/-- The map leads from the id to an active item of the name. -/
def World.Mapped (w : World V) (monId : Nat) (browseName : String) : Prop :=
  ∃ i, w.subscriptionMap.lookup monId = some (w.items.slot i) ∧ w.ActiveAt i browseName

/-- Removing the `i`-th item neither carries the id of another registered item nor moves it. -/
def Process.SparesRegistered (p : Process V) (i : Nat) (item : MonitorItem) : Prop :=
  ∀ r ∈ p.registered, r.2 ≠ item.browseName → r.1 ≠ item.id ∧
    ∀ j < p.items.size, p.subscriptionMap.lookup r.1 = some (p.items.slot j) →
      ¬ p.items.Moved i j

/-- The operation enters the id in the map. -/
def Op.inserts (monId : Nat) : Op V → Bool
  | answered result _ _ => result.statusCode.isGood && result.monitoredItemId == monId
  | _ => false

/-- A thread is about to enter the id in the map. -/
def State.Inserting (s : State V Unit) (monId : Nat) : Prop :=
  ∃ t, Code.runs (Op.inserts monId) (s.stack t) = true

/-- The condition on a step: `responseHandler` is not run for a registered id that a thread is
about to enter in the map, and a removal spares the other registered items. -/
def Prompt (s : State V Unit) (_ : Thread Unit) : Op V → Prop
  | .callback (.dataChange monId _) =>
    monId ∈ s.shared.registered.map (·.1) → ¬ s.Inserting monId
  | .pushData monId _ => monId ∈ s.shared.registered.map (·.1) → ¬ s.Inserting monId
  | .leaveItem _ browseName _ => ∀ found ∈ s.shared.find? browseName,
      found.2.accessors.length ≤ 1 → s.shared.SparesRegistered found.1 found.2
  | _ => True

instance (p : Process V) (i : Nat) (item : MonitorItem) : Decidable (p.SparesRegistered i item) := by
  unfold Process.SparesRegistered; infer_instance

instance (s : State V Unit) (monId : Nat) : Decidable (s.Inserting monId) :=
  inferInstanceAs (Decidable (∃ t, Code.runs (Op.inserts monId) (s.stack t) = true))

instance (s : State V Unit) (t : Thread Unit) (i : Op V) : Decidable (Prompt s t i) := by
  apply @Op.casesOn V (fun i => Decidable (Prompt s t i)) i <;> intros
  case callback c =>
    apply @Callback.casesOn V (fun c => Decidable (Prompt s t (.callback c))) c <;> intros <;>
      dsimp only [Prompt] <;> infer_instance
  all_goals dsimp only [Prompt]; infer_instance

/-! ## What the operations leave of registered items -/

/-- Items keep their slots and names, and stay active. -/
structure Stays (w w' : World V) : Prop where
  base : w'.items.base = w.items.base
  subscriptionMap : w'.subscriptionMap = w.subscriptionMap
  items : ∀ (i : Nat) (item : MonitorItem), w.items.elems[i]? = some item →
    ∃ item', w'.items.elems[i]? = some item' ∧ item'.browseName = item.browseName ∧
      (item.active = true → item'.active = true)

section Stays

variable {w w' w'' : World V}

theorem Stays.nameAt (h : Stays w w') {i : Nat} {browseName : String}
    (hname : w.NameAt i browseName) : w'.NameAt i browseName := by
  obtain ⟨item, hitem, rfl⟩ := hname
  obtain ⟨item', hitem', hname, -⟩ := h.items i item hitem
  exact ⟨item', hitem', hname⟩

theorem Stays.activeAt (h : Stays w w') {i : Nat} {browseName : String}
    (hactive : w.ActiveAt i browseName) : w'.ActiveAt i browseName := by
  obtain ⟨item, hitem, rfl, hact⟩ := hactive
  obtain ⟨item', hitem', hname, hact'⟩ := h.items i item hitem
  exact ⟨item', hitem', hname, hact' hact⟩

theorem Stays.mapped (h : Stays w w') {monId : Nat} {browseName : String}
    (hmapped : w.Mapped monId browseName) : w'.Mapped monId browseName := by
  obtain ⟨i, hlookup, hactive⟩ := hmapped
  refine ⟨i, ?_, h.activeAt hactive⟩
  rw [h.subscriptionMap, hlookup, SlotDeque.slot, SlotDeque.slot, h.base]

theorem Stays.of_eq (hitems : w'.items = w.items) (hmap : w'.subscriptionMap = w.subscriptionMap) :
    Stays w w' :=
  ⟨by rw [hitems], hmap, fun i item hitem => ⟨item, hitems ▸ hitem, rfl, id⟩⟩

protected theorem Stays.trans (h : Stays w w') (h' : Stays w' w'') : Stays w w'' := by
  refine ⟨h'.base.trans h.base, h'.subscriptionMap.trans h.subscriptionMap, fun i item hitem => ?_⟩
  obtain ⟨item', hitem', hname, hact⟩ := h.items i item hitem
  obtain ⟨item'', hitem'', hname', hact'⟩ := h'.items i item' hitem'
  exact ⟨item'', hitem'', hname'.trans hname, fun ha => hact' (hact ha)⟩

/-- Flags other than `active` change. -/
theorem Stays.of_calm (hframe : Frame w w') (hcalm : Calm w w') : Stays w w' := by
  refine ⟨hframe.base, hframe.subscriptionMap, fun i item hitem => ?_⟩
  obtain ⟨item', hitem', heq⟩ := SlotDeque.exists_getElem?_of_map_eq hcalm.items.symm hitem
  refine ⟨item', hitem', ?_, fun hact => ?_⟩
  · show item'.calm.browseName = item.calm.browseName
    rw [heq]
  · rw [← (MonitorItem.calm_inj heq).1]
    exact hact

/-- One item is changed, and keeps its name and its flag. -/
theorem Stays.modify {i : Nat} {f : MonitorItem → MonitorItem}
    (hitems : w'.items = w.items.modify i f) (hmap : w'.subscriptionMap = w.subscriptionMap)
    (hname : ∀ item, (f item).browseName = item.browseName)
    (hactive : ∀ item : MonitorItem, item.active = true → (f item).active = true) :
    Stays w w' := by
  refine ⟨by rw [hitems]; rfl, hmap, fun j item hitem => ?_⟩
  rw [hitems]
  by_cases hj : j = i
  · subst hj
    exact ⟨f item, SlotDeque.getElem?_modify_self _ _ hitem, hname item, hactive item⟩
  · exact ⟨item, by rw [SlotDeque.getElem?_modify_of_ne _ _ hj, hitem], rfl, id⟩

theorem activateIfAsync_stays (i : Nat) (w : World V) : Stays w (activateIfAsync i w) := by
  unfold activateIfAsync activateItem
  split
  · split
    · exact .of_eq rfl rfl
    · exact .modify rfl rfl (fun _ => rfl) fun _ _ => rfl
  · exact .of_eq rfl rfl

theorem activateItems_stays (w : World V) : Stays w (activateItems w) := by
  refine ⟨rfl, rfl, fun i item hitem => ⟨{ item with active := true }, ?_, rfl, fun _ => rfl⟩⟩
  show (w.items.elems.map _)[i]? = _
  rw [List.getElem?_map, hitem]
  rfl

theorem setExternalError_stays (browseName : String) (reporter : Accessor) (w : World V) :
    Stays w (setExternalError browseName reporter w) := by
  unfold setExternalError
  split
  · exact .of_eq rfl rfl
  · exact .modify rfl rfl (fun _ => rfl) fun _ => id

end Stays

/-- What stays of the items, and of those that are registered still. -/
structure Retains (p p' : Process V) : Prop where
  nameAt : ∀ i browseName, p.NameAt i browseName → p'.NameAt i browseName
  registered : ∀ r ∈ p'.registered, r ∈ p.registered ∧
    (∀ i, p.ActiveAt i r.2 → p'.ActiveAt i r.2) ∧ (p.Mapped r.1 r.2 → p'.Mapped r.1 r.2)

section Retains

variable {p p' : Process V} {next : Next (Op V) Lock}

theorem Retains.of_stays (h : Stays p.toWorld p'.toWorld)
    (hregistered : ∀ r ∈ p'.registered, r ∈ p.registered) : Retains p p' :=
  ⟨fun _ _ => h.nameAt, fun r hr => ⟨hregistered r hr, fun _ => h.activeAt, h.mapped⟩⟩

/-- The items keep their names, and nothing is registered any more. -/
theorem Retains.of_none (hnames : ∀ (i : Nat) (item : MonitorItem), p.items.elems[i]? = some item →
      ∃ item', p'.items.elems[i]? = some item' ∧ item'.browseName = item.browseName)
    (hregistered : p'.registered = []) : Retains p p' := by
  refine ⟨fun i browseName hname => ?_, fun r hr => by simp [hregistered] at hr⟩
  obtain ⟨item, hitem, rfl⟩ := hname
  exact hnames i item hitem

theorem enterItem_stays {r : Replies V} {browseName : String} {node : UA_NodeId}
    {accessor : Accessor} (he : enterItem r browseName node accessor p = some (p', next)) :
    Stays p.toWorld p'.toWorld ∧ p'.registered = p.registered := by
  unfold enterItem at he
  simp only at he
  split at he
  · obtain ⟨rfl, -⟩ := Process.into_eq.mp he
    refine ⟨⟨rfl, rfl, fun i item hitem => ⟨item, ?_, rfl, id⟩⟩, rfl⟩
    show (p.items.elems ++ [_])[i]? = _
    rw [List.getElem?_append_left (List.getElem?_eq_some_iff.mp hitem).1, hitem]
  · rename_i i item hfind
    have hmodify : Stays p.toWorld { p.toWorld.record (.subscribed accessor browseName) with
        items := p.items.modify i fun item =>
          { item with accessors := item.accessors ++ [accessor] } } :=
      .modify rfl rfl (fun _ => rfl) fun _ => id
    split at he
    · obtain ⟨rfl, -⟩ := Process.into_eq.mp he
      exact ⟨.of_eq rfl rfl, rfl⟩
    · split at he
      · split at he
        · rename_i hpush
          obtain ⟨rfl, -⟩ := Process.into_eq.mp he
          exact ⟨hmodify.trans (.of_calm (pushInitialValue_returned hpush)
            (pushInitialValue_calm hpush)), rfl⟩
        · obtain ⟨rfl, -⟩ := Process.out_eq.mp he
          exact ⟨hmodify, rfl⟩
      · obtain ⟨rfl, -⟩ := Process.into_eq.mp he
        exact ⟨hmodify, rfl⟩

/-- **Registered items** under the operations that neither register nor remove one. -/
theorem Op.exec_retains {i : Op V} (hstage : i.isStage = false)
    (hleave : ∀ r browseName accessor, i ≠ .leaveItem r browseName accessor)
    (he : i.exec p = some (p', next)) : Retains p p' := by
  by_cases hplain : i.isPlain = true
  · have hp := Op.exec_plain hplain he
    refine .of_stays (.of_eq hp.items hp.subscriptionMap) fun r hr => ?_
    rcases hp.registered with hsame | hnone
    · exact hsame ▸ hr
    · simp [hnone] at hr
  cases i <;> try exact absurd rfl hplain
  case raise message deactivating =>
    obtain ⟨rfl, -⟩ := Process.into_eq.mp he
    exact .of_stays (.of_calm (handleException_frame _ message) (handleException_calm message _))
      fun r hr => hr
  case clearActive removal =>
    obtain ⟨rfl, -⟩ := Process.into_eq.mp he
    refine .of_none (fun i item hitem => ?_) rfl
    obtain ⟨item', hitem', hcore⟩ := (clearActive_frame p.toWorld).symm_getElem? hitem
    exact ⟨item', hitem', (MonitorItem.core_inj.mp hcore).2.2.2.2⟩
  case clearAsync =>
    obtain ⟨rfl, -⟩ := Process.into_eq.mp he
    exact .of_stays (.of_eq rfl rfl) fun r hr => hr
  case pushData monId value =>
    obtain ⟨rfl, -⟩ := Process.into_eq.mp he
    exact .of_stays (.of_calm (pushData_frame monId value _) (pushData_calm monId value _))
      fun r hr => hr
  case resetItems =>
    obtain ⟨rfl, -⟩ := Process.into_eq.mp he
    refine .of_none (fun i item hitem => ⟨{ item with isMonitored := false }, ?_, rfl⟩) rfl
    show (p.items.elems.map _)[i]? = _
    rw [List.getElem?_map, hitem]
    rfl
  case monitorItem reply i =>
    simp only [Op.exec, OpcUaBackend.monitorItem] at he
    repeat' split at he
    all_goals
      obtain ⟨rfl, -⟩ := Process.into_eq.mp he
      exact .of_stays ((activateIfAsync_stays i p.toWorld).trans (.of_eq rfl rfl)) fun r hr => hr
  case created result i => cases hstage
  case answered result i browseName => cases hstage
  case setAsync =>
    obtain ⟨rfl, -⟩ := Process.into_eq.mp he
    exact .of_stays (.of_eq rfl rfl) fun r hr => hr
  case activateItems =>
    obtain ⟨rfl, -⟩ := Process.into_eq.mp he
    exact .of_stays (activateItems_stays _) fun r hr => hr
  case enterItem r browseName node accessor =>
    obtain ⟨hstays, hregistered⟩ := enterItem_stays he
    exact .of_stays hstays fun r hr => hregistered ▸ hr
  case leaveItem r browseName accessor => exact absurd rfl (hleave r browseName accessor)
  case setExternalError browseName reporter =>
    obtain ⟨rfl, -⟩ := Process.into_eq.mp he
    exact .of_stays (setExternalError_stays browseName reporter _) fun r hr => hr
  case popNotification accessor =>
    obtain ⟨rfl, -⟩ := Process.into_eq.mp he
    exact .of_stays (.of_eq rfl rfl) fun r hr => hr
  case copyVariant accessor value =>
    obtain ⟨rfl, -⟩ := Process.into_eq.mp he
    exact .of_stays (.of_eq rfl rfl) fun r hr => hr
  case overwrite accessor payload converts =>
    rcases overwriteValue_cases he with ⟨rfl, -⟩ | ⟨rfl, -⟩ <;>
      exact .of_stays (.of_eq rfl rfl) fun r hr => hr

end Retains

/-! ## Names and events -/

section Names

variable {p p' : Process V} {next : Next (Op V) Lock}

theorem SlotDeque.names_modify {d : SlotDeque MonitorItem}
    (h : (d.elems.map (·.browseName)).Nodup) (i : Nat) {f : MonitorItem → MonitorItem}
    (hf : ∀ item, (f item).browseName = item.browseName) :
    ((d.modify i f).elems.map (·.browseName)).Nodup := by
  rw [SlotDeque.map_elems_modify d i hf]
  exact h

/-- The items of a new name, or with a further accessor. -/
theorem enterItem_names {r : Replies V} {browseName : String} {node : UA_NodeId}
    {accessor : Accessor} (h : (p.items.elems.map (·.browseName)).Nodup)
    (he : enterItem r browseName node accessor p = some (p', next)) :
    (p'.items.elems.map (·.browseName)).Nodup := by
  have hmodify : ∀ i, ((p.items.modify i fun item =>
      { item with accessors := item.accessors ++ [accessor] }).elems.map (·.browseName)).Nodup :=
    fun i => SlotDeque.names_modify h i fun _ => rfl
  unfold enterItem at he
  simp only at he
  split at he
  · rename_i hfind
    obtain ⟨rfl, -⟩ := Process.into_eq.mp he
    show ((p.items.elems ++ [_]).map _).Nodup
    rw [List.map_append]
    refine List.nodup_append.mpr ⟨h, List.nodup_singleton _, fun a ha b hb hab => ?_⟩
    obtain ⟨item, hitem, rfl⟩ := List.mem_map.mp ha
    obtain rfl := List.mem_singleton.mp hb
    exact World.find?_eq_none hfind item hitem hab
  · split at he
    · obtain ⟨rfl, -⟩ := Process.into_eq.mp he
      exact h
    · split at he
      · split at he
        · rename_i hpush
          obtain ⟨rfl, -⟩ := Process.into_eq.mp he
          exact (pushInitialValue_returned hpush).names ▸ hmodify _
        · obtain ⟨rfl, -⟩ := Process.out_eq.mp he
          exact hmodify _
      · obtain ⟨rfl, -⟩ := Process.into_eq.mp he
        exact hmodify _

/-- No operation gives two items one name. -/
theorem Op.exec_names {i : Op V} (h : (p.items.elems.map (·.browseName)).Nodup)
    (he : i.exec p = some (p', next)) : (p'.items.elems.map (·.browseName)).Nodup := by
  by_cases hplain : i.isPlain = true
  · rw [(Op.exec_plain hplain he).items]
    exact h
  by_cases hitems : i.changesItems = true
  · cases i <;> try (cases hitems; done)
    case resetItems =>
      obtain ⟨rfl, -⟩ := Process.into_eq.mp he
      simpa [Process.on, resetMonitoredItems, Function.comp_def] using h
    case answered result i browseName =>
      simp only [Op.exec] at he
      split at he
      · rename_i hgood
        obtain ⟨rfl, -⟩ := Process.into_eq.mp he
        have hitems : (monitoringAnswered i browseName result p.toWorld).items
            = p.items.modify i (MonitorItem.monitor result.monitoredItemId) := by
          rw [monitoringAnswered, if_pos hgood]
        show ((monitoringAnswered i browseName result p.toWorld).items.elems.map _).Nodup
        rw [hitems]
        exact SlotDeque.names_modify h i fun _ => rfl
      · obtain ⟨rfl, -⟩ := Process.into_eq.mp he
        exact h
    case enterItem r browseName node accessor => exact enterItem_names h he
    case leaveItem r browseName accessor =>
      simp only [Op.exec, OpcUaBackend.leaveItem] at he
      split at he
      · obtain ⟨rfl, -⟩ := Process.into_eq.mp he
        exact h
      · split at he
        · split at he
          · obtain ⟨rfl, -⟩ := Process.into_eq.mp he
            exact SlotDeque.names_modify h _ fun _ => rfl
          · obtain ⟨rfl, -⟩ := Process.into_eq.mp he
            exact h
        · obtain ⟨rfl, -⟩ := Process.into_eq.mp he
          exact h.sublist ((List.eraseIdx_sublist _ _).map _)
  · exact (Op.exec_frame (by simpa using hplain) (by simpa using hitems) he).names ▸ h

/-- The operation requests a subscription or a monitored item. -/
def Op.requests : Op V → Bool
  | library (.subscriptionsCreate _) _ => true
  | library (.createDataChange _ _) _ => true
  | _ => false

theorem Op.quiet_of_callEvents {i : Op V} (hi : i.requests = false) :
    ∀ e ∈ i.callEvents p, e.Quiet := by
  intro e he
  cases i <;> simp only [Op.callEvents, Op.call?] at he <;> try cases he
  case library call callbacks =>
    cases call <;> simp [LibraryCall.event?] at he <;> first
      | cases hi; done
      | (subst he; exact ⟨rfl, rfl⟩)

theorem enterItem_local {r : Replies V} {browseName : String} {node : UA_NodeId}
    {accessor : Accessor} (he : enterItem r browseName node accessor p = some (p', next)) :
    Extends (fun e => e.isLocal = true) p.history p'.history := by
  have hrecord := (record_frame p.toWorld (e := .subscribed accessor browseName) rfl).history
  unfold enterItem at he
  simp only at he
  split at he
  · obtain ⟨rfl, -⟩ := Process.into_eq.mp he
    exact hrecord
  · split at he
    · obtain ⟨rfl, -⟩ := Process.into_eq.mp he
      exact hrecord
    · split at he
      · split at he
        · rename_i hpush
          obtain ⟨rfl, -⟩ := Process.into_eq.mp he
          have hinitial := (pushInitialValue_returned hpush).history
          exact hrecord.trans hinitial
        · obtain ⟨rfl, -⟩ := Process.out_eq.mp he
          exact hrecord
      · obtain ⟨rfl, -⟩ := Process.into_eq.mp he
        exact hrecord

/-- The other operations hand out no id. -/
theorem Op.exec_issuedIds {i : Op V} (hi : i.requests = false) (he : i.exec p = some (p', next)) :
    issuedIds p'.history = issuedIds p.history := by
  by_cases hplain : i.isPlain = true
  · rw [(Op.exec_plain hplain he).history, issuedIds_quiet (Op.quiet_of_callEvents hi)]
  by_cases hitems : i.changesItems = true
  · cases i <;> try (cases hitems; done)
    case resetItems =>
      obtain ⟨rfl, -⟩ := Process.into_eq.mp he
      rfl
    case answered result i browseName =>
      simp only [Op.exec] at he
      split at he
      · rename_i hgood
        obtain ⟨rfl, -⟩ := Process.into_eq.mp he
        show issuedIds (monitoringAnswered i browseName result p.toWorld).history = _
        rw [monitoringAnswered, if_pos hgood]
      · obtain ⟨rfl, -⟩ := Process.into_eq.mp he
        rfl
    case enterItem r browseName node accessor =>
      obtain ⟨es, hhistory, hlocal⟩ := enterItem_local he
      rw [hhistory, issuedIds_quiet fun e hmem => Event.quiet_of_isLocal (hlocal e hmem)]
    case leaveItem r browseName accessor =>
      simp only [Op.exec, OpcUaBackend.leaveItem] at he
      repeat' split at he
      all_goals
        obtain ⟨rfl, -⟩ := Process.into_eq.mp he
        rfl
  · exact (Op.exec_frame (by simpa using hplain) (by simpa using hitems) he).issuedIds

end Names

/-! ## The invariant -/

/-- Registered ids lead to their items. The item of a registration keeps its place; a new id is
new to the registered ones; and it is about to lead to its item when it is registered. -/
def Process.Consistent (p : Process V) : CallStage → Prop
  | .idle => ∀ r ∈ p.registered, p.Mapped r.1 r.2
  | .requesting _ i browseName => p.NameAt i browseName ∧ ∀ r ∈ p.registered, p.Mapped r.1 r.2
  | .answered result i browseName => p.NameAt i browseName ∧
      (result.statusCode.isGood = true → result.monitoredItemId ∈ issuedIds p.history ∧
        ∀ r ∈ p.registered, r.1 ≠ result.monitoredItemId) ∧ ∀ r ∈ p.registered, p.Mapped r.1 r.2
  | .inserting result i browseName => p.NameAt i browseName ∧ ∀ r ∈ p.registered,
      if result.statusCode.isGood = true ∧ r.1 = result.monitoredItemId then
        r.2 = browseName ∧ p.ActiveAt i browseName
      else p.Mapped r.1 r.2

structure Deliverable (s : State V Unit) (stage : CallStage) : Prop extends Nesting s stage where
  names : (s.shared.items.elems.map (·.browseName)).Nodup
  issued : ∀ r ∈ s.shared.registered, r.1 ∈ issuedIds s.shared.history
  consistent : s.shared.Consistent stage

section Consistent

variable {p p' : Process V} {next : Next (Op V) Lock} {stage : CallStage}

theorem Process.Consistent.retains (h : p.Consistent stage) (hr : Retains p p')
    (hissued : issuedIds p'.history = issuedIds p.history ∨ stage = .idle) :
    p'.Consistent stage := by
  have hmapped : (∀ r ∈ p.registered, p.Mapped r.1 r.2) → ∀ r ∈ p'.registered, p'.Mapped r.1 r.2 :=
    fun hp r hmem => (hr.registered r hmem).2.2 (hp r (hr.registered r hmem).1)
  cases stage with
  | idle => exact hmapped h
  | requesting result i browseName => exact ⟨hr.nameAt _ _ h.1, hmapped h.2⟩
  | answered result i browseName =>
    have hsame := hissued.resolve_right nofun
    refine ⟨hr.nameAt _ _ h.1, fun hgood => ?_, hmapped h.2.2⟩
    obtain ⟨hid, hnew⟩ := h.2.1 hgood
    exact ⟨hsame ▸ hid, fun r hmem => hnew r (hr.registered r hmem).1⟩
  | inserting result i browseName =>
    refine ⟨hr.nameAt _ _ h.1, fun r hmem => ?_⟩
    obtain ⟨hold, hactive, hmap⟩ := hr.registered r hmem
    have hbefore := h.2 r hold
    split at hbefore
    · rename_i hown
      rw [if_pos hown]
      obtain ⟨hname, hat⟩ := hbefore
      exact ⟨hname, hname ▸ hactive i (hname ▸ hat)⟩
    · rename_i hother
      rw [if_neg hother]
      exact hmap hbefore

/-- The loop body of `addMonitoredItems` goes to the request. -/
theorem Process.Consistent.enter {reply : Reply V MonitoredItemCreateResult} {i : Nat}
    {item : MonitorItem} (h : p.Consistent .idle)
    (hitem : (activateIfAsync i p.toWorld).items.elems[i]? = some item)
    (he : (Op.monitorItem reply i).exec p = some (p', next)) :
    p'.Consistent (.requesting reply.result i item.browseName) := by
  have hretains := Op.exec_retains rfl (fun _ _ _ => by simp) he
  refine ⟨?_, h.retains hretains (.inr rfl)⟩
  have hname : (p.on (activateIfAsync i)).NameAt i item.browseName := ⟨item, hitem, rfl⟩
  simp only [Op.exec, OpcUaBackend.monitorItem] at he
  repeat' split at he
  all_goals
    obtain ⟨rfl, -⟩ := Process.into_eq.mp he
    exact hname

/-- The ids handed out after a request for a monitored item. -/
theorem issuedIds_request (request : MonitoredItemCreateRequest)
    (result : MonitoredItemCreateResult) (h : List (Event V)) :
    issuedIds (.createDataChange request result :: h)
      = (if result.statusCode.isGood then [result.monitoredItemId] else []) ++ issuedIds h := by
  have hopen : (Event.createDataChange request result : Event V).opensSubscription = false := rfl
  cases hgood : result.statusCode.isGood with
  | true => simp [issuedIds, currentEvents, since_cons_go _ hopen, Event.registers, hgood]
  | false => simp [issuedIds, currentEvents, since_cons_go _ hopen, Event.registers, hgood]

/-- The library hands out an id that it has not handed out in the subscription. -/
theorem Process.Consistent.request {request : MonitoredItemCreateRequest}
    {result : MonitoredItemCreateResult} {callbacks : List (Callback V)} {i : Nat}
    {browseName : String} (h : p.Consistent (.requesting result i browseName))
    (hissued : ∀ r ∈ p.registered, r.1 ∈ issuedIds p.history)
    (he : (Op.library (.createDataChange request result) callbacks).exec p = some (p', next))
    (hL : LibraryContract p'.history) :
    p'.Consistent (.answered result i browseName) ∧
      ∀ r ∈ p'.registered, r.1 ∈ issuedIds p'.history := by
  obtain ⟨rfl, -⟩ := Process.into_eq.mp he
  have hids := issuedIds_request { request with subscriptionId := p.subscriptionID } result p.history
  have hL' : Along Event.Documented
      (.createDataChange { request with subscriptionId := p.subscriptionID } result :: p.history) := hL
  refine ⟨⟨h.1, fun hgood => ⟨?_, fun r hmem heq => ?_⟩, h.2⟩, fun r hmem => ?_⟩
  · show result.monitoredItemId ∈ issuedIds (_ :: p.history)
    rw [hids, if_pos hgood]
    exact List.mem_cons_self ..
  · have hfresh := (hL'.1 hgood).2.2
    exact hfresh (heq ▸ hissued r hmem)
  · show r.1 ∈ issuedIds (_ :: p.history)
    rw [hids]
    exact List.mem_append_right _ (hissued r hmem)

/-- The id is registered under `client_lock`. -/
theorem Process.Consistent.release {result : MonitoredItemCreateResult} {i : Nat}
    {browseName : String} (h : p.Consistent (.answered result i browseName))
    (hissued : ∀ r ∈ p.registered, r.1 ∈ issuedIds p.history)
    (he : (Op.created result i).exec p = some (p', next)) :
    p'.Consistent (.inserting result i browseName) ∧
      ∀ r ∈ p'.registered, r.1 ∈ issuedIds p'.history := by
  obtain ⟨⟨item, hitem, hname⟩, hnew, hmapped⟩ := h
  simp only [Op.exec, hitem] at he
  obtain ⟨rfl, -⟩ := Process.into_eq.mp he
  -- a registered id is the new one, or was registered before
  have hcases : ∀ r ∈ (if (result.statusCode.isGood && item.active) = true then
      (result.monitoredItemId, item.browseName) :: p.registered else p.registered),
      (result.statusCode.isGood = true ∧ item.active = true ∧
        r = (result.monitoredItemId, item.browseName)) ∨ r ∈ p.registered := by
    intro r hmem
    split at hmem
    · rename_i hboth
      rw [Bool.and_eq_true] at hboth
      exact (List.mem_cons.mp hmem).imp (fun heq => ⟨hboth.1, hboth.2, heq⟩) id
    · exact .inr hmem
  refine ⟨⟨⟨item, hitem, hname⟩, fun r hmem => ?_⟩, fun r hmem => ?_⟩
  · rcases hcases r hmem with ⟨hgood, hactive, rfl⟩ | hold
    · rw [if_pos ⟨hgood, rfl⟩]
      exact ⟨hname, item, hitem, hname, hactive⟩
    · rw [if_neg fun hown => (hnew hown.1).2 r hold hown.2]
      exact hmapped r hold
  · rcases hcases r hmem with ⟨hgood, -, rfl⟩ | hold
    · exact (hnew hgood).1
    · exact hissued r hold

/-- The id is entered in the map under the mutex. -/
theorem Process.Consistent.insert {result : MonitoredItemCreateResult} {i : Nat}
    {browseName : String} (h : p.Consistent (.inserting result i browseName))
    (he : (Op.answered result i browseName).exec p = some (p', next)) : p'.Consistent .idle := by
  intro r hmem
  simp only [Op.exec] at he
  split at he
  · rename_i hgood
    obtain ⟨rfl, -⟩ := Process.into_eq.mp he
    have hworld : monitoringAnswered i browseName result p.toWorld = { p.toWorld with
        items := p.items.modify i (MonitorItem.monitor result.monitoredItemId)
        subscriptionMap := p.subscriptionMap.insert result.monitoredItemId (p.items.slot i) } :=
      if_pos hgood
    have hactive : ∀ j name, p.ActiveAt j name →
        (monitoringAnswered i browseName result p.toWorld).ActiveAt j name := by
      have hstays : Stays p.toWorld { p.toWorld with
          items := p.items.modify i (MonitorItem.monitor result.monitoredItemId) } :=
        .modify rfl rfl (fun _ => rfl) fun _ => id
      rw [hworld]
      exact fun j name => hstays.activeAt
    have hbefore := h.2 r hmem
    show (monitoringAnswered i browseName result p.toWorld).Mapped r.1 r.2
    split at hbefore
    · rename_i hown
      obtain ⟨hname, hat⟩ := hbefore
      refine ⟨i, ?_, hname ▸ hactive i _ hat⟩
      rw [hworld, hown.2]
      exact AList.lookup_insert _
    · rename_i hother
      obtain ⟨j, hlookup, hat⟩ := hbefore
      refine ⟨j, ?_, hactive j _ hat⟩
      rw [hworld]
      exact (AList.lookup_insert_ne fun heq => hother ⟨hgood, heq⟩).trans hlookup
  · rename_i hbad
    obtain ⟨rfl, -⟩ := Process.into_eq.mp he
    have hbefore := h.2 r hmem
    rwa [if_neg fun hown => hbad hown.1] at hbefore

theorem Op.exec_answered_registered {result : MonitoredItemCreateResult} {i : Nat}
    {browseName : String} (he : (Op.answered result i browseName).exec p = some (p', next)) :
    p'.registered = p.registered := by
  simp only [Op.exec] at he
  split at he <;> obtain ⟨rfl, -⟩ := Process.into_eq.mp he <;> rfl

/-- An item is removed. -/
theorem Process.Consistent.leave {r : Replies V} {browseName : String} {accessor : Accessor}
    (h : p.Consistent .idle) (hspares : ∀ found ∈ p.find? browseName,
      found.2.accessors.length ≤ 1 → p.SparesRegistered found.1 found.2)
    (he : (Op.leaveItem r browseName accessor).exec p = some (p', next)) :
    p'.Consistent .idle ∧ ∀ r ∈ p'.registered, r ∈ p.registered := by
  simp only [Op.exec, OpcUaBackend.leaveItem] at he
  split at he
  · obtain ⟨rfl, -⟩ := Process.into_eq.mp he
    exact ⟨h, fun r hr => hr⟩
  · rename_i i item hfind
    split at he
    · split at he
      · obtain ⟨rfl, -⟩ := Process.into_eq.mp he
        have hstays : Stays p.toWorld { p.toWorld with items := p.items.modify i fun item =>
            { item with accessors := item.accessors.erase accessor } } :=
          .modify rfl rfl (fun _ => rfl) fun _ => id
        exact ⟨fun r hr => hstays.mapped (h r hr), fun r hr => hr⟩
      · obtain ⟨rfl, -⟩ := Process.into_eq.mp he
        exact ⟨h, fun r hr => hr⟩
    · rename_i hlast
      obtain ⟨rfl, -⟩ := Process.into_eq.mp he
      refine ⟨fun r hr => ?_, fun r hr => (List.mem_filter.mp hr).1⟩
      obtain ⟨hold, hkeeps⟩ := List.mem_filter.mp hr
      have hne : r.2 ≠ browseName := by simpa using hkeeps
      obtain ⟨hitem, hname⟩ := World.find?_eq_some hfind
      obtain ⟨j, hlookup, other, hother, hothername, hactive⟩ := h r hold
      have hji : j ≠ i := by
        rintro rfl
        obtain rfl := Option.some.inj (hitem.symm.trans hother)
        exact hne (hothername.symm.trans hname)
      obtain ⟨hid, hmoved⟩ := hspares (i, item) hfind (Nat.not_lt.mp hlast) r hold (hname ▸ hne)
      have hj := hmoved j (List.getElem?_eq_some_iff.mp hother).1 hlookup
      refine ⟨SlotDeque.posAfter i j, ?_, other, ?_, hothername, hactive⟩
      · show (p.subscriptionMap.erase item.id).lookup r.1
          = some ((p.items.erase i).slot (SlotDeque.posAfter i j))
        rw [AList.lookup_erase_ne hid, hlookup, SlotDeque.slot_erase_of_not_moved _ hji hj]
      · show (p.items.erase i).elems[SlotDeque.posAfter i j]? = some other
        rw [SlotDeque.getElem?_erase_posAfter _ hji, hother]

end Consistent

/-! ## Every run -/

section Runs

variable {s s' : State V Unit} {m : Move (Thread Unit) (Entry V)} {stage : CallStage}

theorem Op.not_requests_of_isClient {i : Op V} (h : i.isClient = true) : i.requests = false := by
  cases i <;> try rfl
  case library call callbacks =>
    cases call <;> first | rfl | cases h

theorem Op.not_requests_of_isNested {i : Op V} (h : i.isNested = true) : i.requests = false :=
  Op.not_requests_of_isClient (by simp [Op.isClient, h])

/-- An operation outside of a registration hands out no id, or ends the registrations. -/
theorem Op.exec_issued {i : Op V} {p p' : Process V} {next : Next (Op V) Lock}
    (hstage : i.isStage = false) (h : ∀ r ∈ p.registered, r.1 ∈ issuedIds p.history)
    (hregistered : ∀ r ∈ p'.registered, r ∈ p.registered)
    (he : i.exec p = some (p', next)) : ∀ r ∈ p'.registered, r.1 ∈ issuedIds p'.history := by
  intro r hr
  by_cases hi : i.requests = true
  · cases i <;> try cases hi
    case library call callbacks =>
      cases call <;> try first | cases hi; done | cases hstage; done
      obtain ⟨rfl, -⟩ := Process.into_eq.mp he
      cases hr
  · rw [Op.exec_issuedIds (by simpa using hi) he]
    exact h r (hregistered r hr)

/-- What every step under the condition preserves. -/
theorem Deliverable.step (h : Deliverable s stage) (hg : OnRun Prompt s m)
    (hs : (threads V Unit).machine.step s m s') : ∃ stage', Deliverable s' stage' := by
  obtain ⟨stage', hnesting, ⟨hsame, rfl⟩ | ⟨t, i, rest, next, rfl, hstack, hexec, hmoves⟩⟩ :=
    h.toNesting.step hs.1
  · exact ⟨stage', hnesting, hsame ▸ h.names, hsame ▸ h.issued, hsame ▸ h.consistent⟩
  have hnames := Op.exec_names h.names hexec
  have hcond : Prompt s t i := hg.run hstack
  -- an operation that leaves the stage as it is
  have hstays : stage' = stage → i.isStage = false → (i.requests = false ∨ stage = .idle) →
      (∀ r browseName accessor, i ≠ .leaveItem r browseName accessor) →
        ∃ stage', Deliverable s' stage' := by
    rintro rfl hstage hrequests hleave
    have hr := Op.exec_retains hstage hleave hexec
    refine ⟨stage', hnesting, hnames,
      Op.exec_issued hstage h.issued (fun r hmem => (hr.registered r hmem).1) hexec,
      h.consistent.retains hr (hrequests.imp_left fun hi => Op.exec_issuedIds hi hexec)⟩
  cases t with
  | client =>
    -- the client thread registers nothing
    obtain ⟨hclient, heq⟩ : i.isClient = true ∧ stage' = stage := hmoves
    exact hstays heq (Op.not_isStage_of_isClient hclient)
      (.inl (Op.not_requests_of_isClient hclient)) fun r browseName accessor hi => by
        subst hi
        cases hclient
  | app a =>
    have hgoes : stage.Goes s.shared i stage' := hmoves
    cases hgoes with
    | inner hnested =>
      -- a callback inside the request
      exact hstays rfl (Op.not_isStage_of_isNested hnested)
        (.inl (Op.not_requests_of_isNested hnested)) fun r browseName accessor hi => by
          subst hi
          cases hnested
    | outer hnested hstage =>
      by_cases hleave : ∃ r browseName accessor, i = .leaveItem r browseName accessor
      · -- the last accessor of an item unsubscribes, and the condition is about that
        obtain ⟨r, browseName, accessor, rfl⟩ := hleave
        obtain ⟨hconsistent, hregistered⟩ := h.consistent.leave hcond hexec
        exact ⟨.idle, hnesting, hnames, Op.exec_issued hstage h.issued hregistered hexec,
          hconsistent⟩
      · exact hstays rfl hstage (.inr rfl) fun r browseName accessor hi =>
          hleave ⟨r, browseName, accessor, hi⟩
    | enter hitem hnew =>
      have hr := Op.exec_retains rfl (fun _ _ _ => by simp) hexec
      exact ⟨_, hnesting, hnames,
        Op.exec_issued rfl h.issued (fun r hmem => (hr.registered r hmem).1) hexec,
        h.consistent.enter hitem hexec⟩
    | request =>
      obtain ⟨hconsistent, hissued⟩ := h.consistent.request h.issued hexec hs.2.2
      exact ⟨_, hnesting, hnames, hissued, hconsistent⟩
    | release =>
      obtain ⟨hconsistent, hissued⟩ := h.consistent.release h.issued hexec
      exact ⟨_, hnesting, hnames, hissued, hconsistent⟩
    | insert =>
      refine ⟨.idle, hnesting, hnames, fun r hmem => ?_, h.consistent.insert hexec⟩
      rw [Op.exec_issuedIds rfl hexec]
      exact h.issued r (Op.exec_answered_registered hexec ▸ hmem)

theorem reach_deliverable (h : (threads V Unit).machine.Reach (OnRun Prompt) s) :
    ∃ stage, Deliverable s stage := by
  refine h.invariant (I := fun s => ∃ stage, Deliverable s stage) (fun s hinit => ?_)
    fun s m s' ⟨stage, hI⟩ hg hs => hI.step hg hs
  obtain ⟨hfresh, hstack, -⟩ := hinit
  have hleft : CallStage.idle.Leaves (Code.stage (s.stack (.app ()))) := by
    rw [hstack]
    exact .idle
  refine ⟨.idle, ⟨?_, ?_, hleft⟩, ?_, ?_, ?_⟩
  · rw [hstack]
    rfl
  · rw [hstack]
    trivial
  · simp [hfresh.world.items]
  · simp [hfresh.registered]
  · simp [Process.Consistent, hfresh.registered]

/-- The ids that no thread is about to enter lead to their items. -/
theorem Deliverable.mapped (h : Deliverable s stage) {monId : Nat} {browseName : String}
    (hreg : (monId, browseName) ∈ s.shared.registered) (hprompt : ¬ s.Inserting monId) :
    s.shared.Mapped monId browseName := by
  have hconsistent := h.consistent
  cases stage with
  | idle => exact hconsistent _ hreg
  | requesting result i name => exact hconsistent.2 _ hreg
  | answered result i name => exact hconsistent.2.2 _ hreg
  | inserting result i name =>
    have hr := hconsistent.2 _ hreg
    split at hr
    · rename_i hown
      -- the thread is about to enter the id
      have hmem : Instr.run (.answered result i name) ∈ s.stack (.app ()) :=
        Code.mem_of_stage (by rw [h.left.inserting_eq]; exact List.mem_cons_self ..)
      exact absurd ⟨.app (), Code.runs_iff.mpr ⟨_, hmem, by simp [Op.inserts, hown.1, ← hown.2]⟩⟩
        hprompt
    · exact hr

/-- What a step does with a notification for the item of the name: its test lets it through, and
its push reaches all accessors of the item. -/
structure Delivers (s s' : State V Unit) (t : Thread Unit) (monId : Nat) (value : DataValue V)
    (browseName : String) : Prop where
  tested : ∀ rest, s.stack t = .run (.callback (.dataChange monId value)) :: rest →
    s'.stack t = .lock .mutex :: .run (.pushData monId value) :: .unlock .mutex :: rest
  pushed : ∀ rest, s.stack t = .run (.pushData monId value) :: rest →
    ∃ i item, s.shared.find? browseName = some (i, item) ∧
      Delivered (.data value) item.accessors s.shared.toWorld s'.shared.toWorld

/-- Names are distinct, so an item is found by its name. -/
theorem Deliverable.find? (h : Deliverable s stage) {i : Nat} {item : MonitorItem}
    (hitem : s.shared.items.elems[i]? = some item) :
    s.shared.find? item.browseName = some (i, item) := by
  cases hfind : s.shared.find? item.browseName with
  | none => exact absurd rfl (World.find?_eq_none hfind item (List.mem_of_getElem? hitem))
  | some found =>
    obtain ⟨hfound, hname⟩ := World.find?_eq_some hfind
    obtain rfl := index_inj h.names hitem hfound hname.symm
    obtain rfl := Option.some.inj (hitem.symm.trans hfound)
    rfl

/-- **No notification is lost.** In every run in which no notification is dispatched for a
registered id before it is in the map, and no removal moves another registered item, a
notification for a registered id passes the test of `responseHandler`, and its push reaches all
accessors of the item. -/
theorem reach_delivers (h : (threads V Unit).machine.Reach (OnRun Prompt) s) {t : Thread Unit}
    (hg : OnRun Prompt s (.advance t)) (hs : (threads V Unit).machine.step s (.advance t) s')
    {monId : Nat} {browseName : String} (hreg : (monId, browseName) ∈ s.shared.registered)
    (value : DataValue V) : Delivers s s' t monId value browseName := by
  obtain ⟨stage, hI⟩ := reach_deliverable h
  have hid : monId ∈ s.shared.registered.map (·.1) := List.mem_map_of_mem hreg
  constructor
  · intro rest hstack
    have hcond : Prompt s t (.callback (.dataChange monId value)) := hg.run hstack
    obtain ⟨i, hlookup, item, hitem, -, hactive⟩ := hI.mapped hreg (hcond hid)
    have hexec : (threads V Unit).exec (.callback (.dataChange monId value)) s.shared = some
        (s.shared, .into [.lock .mutex, .run (.pushData monId value), .unlock .mutex]) := by
      show enterCallback (.dataChange monId value) s.shared = _
      simp only [enterCallback, hlookup, SlotDeque.get?_slot, hitem, hactive, if_true, Process.into]
    exact (hs.1.after_run hstack hexec).2
  · intro rest hstack
    have hcond : Prompt s t (.pushData monId value) := hg.run hstack
    obtain ⟨i, hlookup, item, hitem, rfl, hactive⟩ := hI.mapped hreg (hcond hid)
    refine ⟨i, item, hI.find? hitem, ?_⟩
    rw [(hs.1.after_run hstack rfl).1]
    show Delivered _ _ _ (pushData monId value s.shared.toWorld)
    have hget : s.shared.items.get? (s.shared.items.slot i) = some item := by
      rw [SlotDeque.get?_slot, hitem]
    simp only [pushData, hlookup, hget]
    obtain ⟨hhistory, hnewest, hothers, hfault⟩ := pushAll_delivered (.data value) item.accessors
      { s.shared.toWorld with items := s.shared.items.mapSlots fun q' item =>
          if q' = s.shared.items.slot i then { item with hasException := false } else item }
    exact ⟨hhistory, hnewest, hothers, hfault⟩

end Runs

/-- The code begins with the dispatch of a notification. -/
def Code.dispatches [DecidableEq V] (monId : Nat) (value : DataValue V) : Code V → Bool
  | .run (.callback (.dataChange monId' value')) :: _ => monId' == monId && value' == value
  | _ => false

theorem Code.eq_of_dispatches [DecidableEq V] {monId : Nat} {value : DataValue V} {code : Code V}
    (h : Code.dispatches monId value code = true) :
    ∃ rest, code = .run (.callback (.dataChange monId value)) :: rest := by
  unfold Code.dispatches at h
  split at h
  · obtain ⟨rfl, rfl⟩ : _ = monId ∧ _ = value := by simpa using h
    exact ⟨_, rfl⟩
  · cases h

/-- While a register is read asynchronously a further one is registered, up to the `n`-th step of
the accessor's construction; then the client thread comes to the notification of a value for it. -/
def registeredUpTo (n : Nat) : List (Move (Thread Unit) (Entry Nat)) :=
  let iteration : Entry Nat := .runClient (notifying 2) { result := .good }
  Entry.steps (.app ()) (.constructAccessor {} "a" ⟨1, .string "a"⟩ 10) 6
    ++ Entry.steps (.app ()) (.openDevice {} connecting) 40
    ++ Entry.steps (.app ()) (.activateAsyncRead {}) 13
    ++ Entry.steps (.app ()) (.constructAccessor {} "b" ⟨1, .string "b"⟩ 11) n
    ++ Entry.steps .client iteration 1 ++ Entry.steps .client iteration 2

theorem reach_delivers_registered :
    Delivers ((threads Nat Unit).after (Program.start {}) (registeredUpTo 19))
      (clientStepped (registeredUpTo 19)) .client 2 { value := some 5 } "b" :=
  reach_delivers (Program.reach_after (registeredUpTo 19)
    (Program.reach_start Process.fresh_default) (by decide +kernel)) (by decide +kernel)
    (step_clientStepped (by decide +kernel) (by decide +kernel)) (by decide +kernel) _

/-- The notification comes when the application thread has released `client_lock` and not yet
taken the mutex: it is dropped. -/
theorem not_delivers_unmapped :
    ¬ ∀ (s s' : State Nat Unit) t monId value browseName, (threads Nat Unit).machine.Reachable s →
      (threads Nat Unit).machine.step s (.advance t) s' →
        (monId, browseName) ∈ s.shared.registered → Delivers s s' t monId value browseName := by
  intro h
  have hdelivers := h _ _ .client 2 { value := some 5 } "b" (Program.reach_after (registeredUpTo 15)
    (Program.reach_start Process.fresh_default) (by decide +kernel))
    (step_clientStepped (by decide +kernel) (by decide +kernel)) (by decide +kernel)
  have hdispatches : Code.dispatches 2 { value := some 5 }
      (((threads Nat Unit).after (Program.start {}) (registeredUpTo 15)).stack .client) = true := by
    decide +kernel
  obtain ⟨rest, hstack⟩ := Code.eq_of_dispatches hdispatches
  have hrequests : Code.requests .mutex ((clientStepped (registeredUpTo 15)).stack .client) = true := by
    rw [hdelivers.tested rest hstack]
    rfl
  exact absurd hrequests (by decide +kernel)

end OpcUaBackend
