import OpcUaBackend.Threads.Inactivity

/-!
# Silence after an exception

`responseHandler` tests the flag of an item, and pushes the data in a critical section of its
own. An exception of `deactivateAllAndPushException` that comes in between is followed by the
data; so is the end of `deactivate`, and an exception whose items are not yet cleared when the
flag is tested. In runs without these three, no data follows an exception, or the end of
`deactivate`, before the next activation.

## Main definitions

* `Code.pushes`, `State.Sparing`: the pushes that wait, and that they reach no accessor with an
  exception
* `Undisturbed`: the condition on a step
* `Silenced`: the invariant

## Main results

* `Op.exec_sparing`: the operations let the waiting pushes spare the accessors
* `Silenced.step`: what every step under the condition preserves
* `reach_silent`: nothing after the exception
-/

namespace OpcUaBackend

open Foundation

variable {V α : Type}

/-! ## Waiting pushes -/

/-- The ids of the pushes in the code. -/
def Code.pushes (code : Code V) : List Nat :=
  code.filterMap fun
    | .run (.pushData monId _) => some monId
    | _ => none

theorem Code.mem_pushes {code : Code V} {monId : Nat} :
    monId ∈ Code.pushes code ↔ ∃ value, .run (.pushData monId value) ∈ code := by
  unfold Code.pushes
  rw [List.mem_filterMap]
  constructor
  · rintro ⟨x, hx, hid⟩
    split at hid
    · obtain rfl := Option.some.inj hid
      exact ⟨_, hx⟩
    · cases hid
  · rintro ⟨value, hmem⟩
    exact ⟨_, hmem, rfl⟩

/-- A push for the id reaches no accessor with an exception. -/
def Process.SparedBy (monId : Nat) (p : Process V) : Prop :=
  ∀ item ∈ p.target monId, ∀ a ∈ item.accessors, a ∉ p.excepted

instance (monId : Nat) (p : Process V) : Decidable (p.SparedBy monId) := by
  unfold Process.SparedBy; infer_instance

/-- The pushes that wait in `s` would reach, in `p`, no accessor with an exception. -/
def State.Sparing (s : State V α) (p : Process V) : Prop :=
  ∀ t, ∀ monId ∈ Code.pushes (s.stack t), p.SparedBy monId

/-- No push waits for another id than that of the `i`-th item that would, once this item is erased,
reach an accessor with an exception. -/
def State.SparesErasure (s : State V α) (i id : Nat) : Prop :=
  ∀ t, ∀ monId ∈ Code.pushes (s.stack t), monId ≠ id →
    Process.SparedBy monId { s.shared with items := s.shared.items.erase i }

/-- What the condition asks of an operation. No push waits for an item that
`deactivateAllAndPushException` marks, and none at the end of `deactivate`; the test of
`responseHandler` does not find an active item with an exception; no push waits for the id under
which an item is entered in the map whose accessors have one; and none that the erasure of an item
leads to such an item. -/
def State.Spares (s : State V α) : Op V → Prop
  | .raise _ true => ∀ t, ∀ monId ∈ Code.pushes (s.stack t), ∀ item ∈ s.shared.target monId,
      ∀ a ∈ item.accessors,
        a ∉ (s.shared.items.elems.filter MonitorItem.raises).flatMap (·.accessors)
  | .callback (.dataChange monId _) => ∀ item ∈ s.shared.target monId, item.active = true →
      ∀ a ∈ item.accessors, a ∉ s.shared.excepted
  | .clearAsync => ∀ t, Code.pushes (s.stack t) = []
  | .answered result i _ => result.statusCode.isGood = true →
      ∀ t, result.monitoredItemId ∈ Code.pushes (s.stack t) →
        ∀ item ∈ s.shared.items.elems[i]?, ∀ a ∈ item.accessors, a ∉ s.shared.excepted
  | .leaveItem _ browseName _ => ∀ found ∈ s.shared.find? browseName,
      found.2.accessors.length ≤ 1 → s.SparesErasure found.1 found.2.id
  | _ => True

instance (s : State V Unit) (p : Process V) : Decidable (s.Sparing p) := by
  unfold State.Sparing; infer_instance

instance (s : State V Unit) (i id : Nat) : Decidable (s.SparesErasure i id) := by
  unfold State.SparesErasure; infer_instance

instance (s : State V Unit) (i : Op V) : Decidable (s.Spares i) := by
  apply @Op.casesOn V (fun i => Decidable (s.Spares i)) i <;> intros
  case raise message deactivating =>
    apply @Bool.casesOn (fun b => Decidable (s.Spares (.raise message b))) deactivating <;>
      dsimp only [State.Spares] <;> infer_instance
  case callback c =>
    apply @Callback.casesOn V (fun c => Decidable (s.Spares (.callback c))) c <;> intros <;>
      dsimp only [State.Spares] <;> infer_instance
  all_goals dsimp only [State.Spares]; infer_instance

/-- The condition on a step: that of the inactivity, and that the waiting pushes spare the
accessors with an exception. -/
def Undisturbed (s : State V α) (t : Thread α) (i : Op V) : Prop := Settling s t i ∧ s.Spares i

instance (s : State V Unit) (t : Thread Unit) (i : Op V) : Decidable (Undisturbed s t i) :=
  inferInstanceAs (Decidable (Settling s t i ∧ s.Spares i))

/-! ## Operations and waiting pushes -/

section Operations

variable {s : State V α} {p p' : Process V} {next : Next (Op V) Lock}

theorem Frame.target {w w' : World V} (h : Frame w w') {monId : Nat} {item' : MonitorItem}
    (htarget : w'.target monId = some item') :
    ∃ item, w.target monId = some item ∧ item'.core = item.core := by
  obtain ⟨q, hlookup, hget⟩ := Option.bind_eq_some_iff.mp htarget
  obtain ⟨i, rfl, hi⟩ := (SlotDeque.get?_eq_some _).mp hget
  obtain ⟨item, hitem, hcore⟩ := h.getElem? hi
  refine ⟨item, Option.bind_eq_some_iff.mpr ⟨_, h.subscriptionMap ▸ hlookup, ?_⟩, hcore⟩
  rw [h.slot, SlotDeque.get?_slot, hitem]

theorem World.Inactive.target {w : World V} (h : w.Inactive) {monId : Nat} {item : MonitorItem}
    (htarget : w.target monId = some item) : item.active = false := by
  obtain ⟨q, -, hget⟩ := Option.bind_eq_some_iff.mp htarget
  obtain ⟨i, -, hi⟩ := (SlotDeque.get?_eq_some _).mp hget
  exact h item (List.mem_of_getElem? hi)

theorem State.Sparing.frame (h : s.Sparing p) (hframe : Frame p.toWorld p'.toWorld)
    (hexcepted : ∀ a ∈ p'.excepted, a ∈ p.excepted) : s.Sparing p' := by
  intro t monId hpush item' htarget a ha hmem
  obtain ⟨item, hitem, hcore⟩ := hframe.target htarget
  rw [(MonitorItem.core_inj.mp hcore).2.1] at ha
  exact h t monId hpush item hitem a ha (hexcepted a hmem)

/-- The items get a further accessor, which has no exception. -/
theorem State.Sparing.enter (h : s.Sparing p) {accessor : Accessor}
    (hbase : p'.items.base = p.items.base) (hmap : p'.subscriptionMap = p.subscriptionMap)
    (hitems : ∀ (i : Nat) (item' : MonitorItem), p'.items.elems[i]? = some item' →
      ∀ a ∈ item'.accessors,
        a = accessor ∨ ∃ item, p.items.elems[i]? = some item ∧ a ∈ item.accessors)
    (hexcepted : p'.excepted = p.excepted.filter (· ≠ accessor)) : s.Sparing p' := by
  intro t monId hpush item' htarget a ha hmem
  obtain ⟨q, hlookup, hget⟩ := Option.bind_eq_some_iff.mp htarget
  obtain ⟨i, rfl, hi⟩ := (SlotDeque.get?_eq_some _).mp hget
  rw [hexcepted] at hmem
  obtain ⟨hold, hne⟩ := List.mem_filter.mp hmem
  rcases hitems i item' hi a ha with rfl | ⟨item, hitem, ha'⟩
  · simp at hne
  · refine h t monId hpush item ?_ a ha' hold
    refine Option.bind_eq_some_iff.mpr ⟨_, hmap ▸ hlookup, ?_⟩
    rw [SlotDeque.slot, hbase, ← SlotDeque.slot, SlotDeque.get?_slot, hitem]

theorem enterItem_sparing {r : Replies V} {browseName : String} {node : UA_NodeId}
    {accessor : Accessor} (h : s.Sparing p)
    (he : enterItem r browseName node accessor p = some (p', next)) : s.Sparing p' := by
  -- the accessor joins one item, where it is the only new one
  have hmodify : ∀ (i j : Nat) (item' : MonitorItem), (p.items.modify i fun item =>
      { item with accessors := item.accessors ++ [accessor] }).elems[j]? = some item' →
        ∀ a ∈ item'.accessors,
          a = accessor ∨ ∃ item, p.items.elems[j]? = some item ∧ a ∈ item.accessors := by
    intro i j item' hj a ha
    rw [SlotDeque.elems_modify, List.getElem?_modify] at hj
    obtain ⟨item, hitem, rfl⟩ := Option.map_eq_some_iff.mp hj
    split at ha
    · rcases List.mem_append.mp ha with hold | hnew
      · exact .inr ⟨item, hitem, hold⟩
      · exact .inl (List.mem_singleton.mp hnew)
    · exact .inr ⟨item, hitem, ha⟩
  unfold enterItem at he
  simp only at he
  split at he
  · obtain ⟨rfl, -⟩ := Process.into_eq.mp he
    refine h.enter rfl rfl (fun i item' hi a ha => ?_) rfl
    have hi' : (p.items.elems ++ [_])[i]? = some item' := hi
    rw [List.getElem?_append] at hi'
    split at hi'
    · exact .inr ⟨item', hi', ha⟩
    · obtain rfl := List.mem_singleton.mp (List.mem_of_getElem? hi')
      exact .inl (List.mem_singleton.mp ha)
  · rename_i i item hfind
    split at he
    · obtain ⟨rfl, -⟩ := Process.into_eq.mp he
      exact h.enter rfl rfl (fun i item' hi a ha => .inr ⟨item', hi, ha⟩) rfl
    · split at he
      · split at he
        · rename_i hpush
          obtain ⟨rfl, -⟩ := Process.into_eq.mp he
          have hentered : s.Sparing { p.on (World.record (.subscribed accessor browseName)) with
              excepted := p.excepted.filter (· ≠ accessor)
              items := p.items.modify i fun item =>
                { item with accessors := item.accessors ++ [accessor] } } :=
            h.enter rfl rfl (hmodify i) rfl
          exact hentered.frame (pushInitialValue_returned hpush) fun a ha => ha
        · obtain ⟨rfl, -⟩ := Process.out_eq.mp he
          exact h.enter rfl rfl (hmodify i) rfl
      · obtain ⟨rfl, -⟩ := Process.into_eq.mp he
        exact h.enter rfl rfl (hmodify i) rfl

theorem enterItem_excepted {r : Replies V} {browseName : String} {node : UA_NodeId}
    {accessor : Accessor} (he : enterItem r browseName node accessor p = some (p', next)) :
    p'.excepted = p.excepted.filter (· ≠ accessor) ∧ p'.deactivated = p.deactivated := by
  unfold enterItem at he
  simp only at he
  repeat' split at he
  all_goals first
    | (obtain ⟨rfl, -⟩ := Process.into_eq.mp he; exact ⟨rfl, rfl⟩)
    | (obtain ⟨rfl, -⟩ := Process.out_eq.mp he; exact ⟨rfl, rfl⟩)

/-- Where an item is changed in its slot, with no further accessor, a push that spares its
accessors spares them still. -/
theorem State.Sparing.modify (h : s.Sparing p) (i : Nat) {f : MonitorItem → MonitorItem}
    (hf : ∀ item, (f item).accessors ⊆ item.accessors) {monId : Nat} {t : Thread α}
    (hpush : monId ∈ Code.pushes (s.stack t)) {q : Nat}
    (hlookup : p.subscriptionMap.lookup monId = some q) {item' : MonitorItem}
    (hget : (p.items.modify i f).get? q = some item') :
    ∀ a ∈ item'.accessors, a ∉ p.excepted := by
  intro a ha
  obtain ⟨j, rfl, hj⟩ := (SlotDeque.get?_eq_some _).mp hget
  rw [SlotDeque.elems_modify, List.getElem?_modify] at hj
  obtain ⟨item, hitem, rfl⟩ := Option.map_eq_some_iff.mp hj
  have htarget : p.target monId = some item := by
    refine Option.bind_eq_some_iff.mpr ⟨_, hlookup, ?_⟩
    rw [SlotDeque.slot_modify, SlotDeque.get?_slot, hitem]
  split at ha
  · exact h t monId hpush item htarget a (hf item ha)
  · exact h t monId hpush item htarget a ha

/-- An item is entered in the map. -/
theorem answered_sparing {result : MonitoredItemCreateResult} {i : Nat} {browseName : String}
    (hi : s.Spares (.answered result i browseName)) (h : s.Sparing s.shared)
    (he : (Op.answered result i browseName).exec s.shared = some (p', next)) : s.Sparing p' := by
  simp only [Op.exec] at he
  split at he
  · rename_i hgood
    obtain ⟨rfl, -⟩ := Process.into_eq.mp he
    intro t monId hpush item htarget a ha
    simp only [Process.on, World.target, monitoringAnswered, if_pos hgood] at htarget ⊢
    obtain ⟨q, hlookup, hget⟩ := Option.bind_eq_some_iff.mp htarget
    by_cases hid : monId = result.monitoredItemId
    · -- the id leads to the item that is entered
      subst hid
      rw [AList.lookup_insert, Option.some_inj] at hlookup
      subst hlookup
      have hget' : (s.shared.items.modify i
          (MonitorItem.monitor result.monitoredItemId)).elems[i]? = some item := by
        rw [← SlotDeque.get?_slot]
        exact hget
      rw [SlotDeque.elems_modify, List.getElem?_modify] at hget'
      obtain ⟨item₀, hitem, rfl⟩ := Option.map_eq_some_iff.mp hget'
      rw [if_pos rfl] at ha
      exact hi hgood t hpush item₀ hitem a ha
    · rw [AList.lookup_insert_ne hid] at hlookup
      exact h.modify i (f := MonitorItem.monitor result.monitoredItemId)
        (fun _ => List.Subset.refl _) hpush hlookup hget a ha
  · obtain ⟨rfl, -⟩ := Process.into_eq.mp he
    exact h

/-- An accessor leaves, and perhaps takes the item with it. -/
theorem leaveItem_sparing {r : Replies V} {browseName : String} {accessor : Accessor}
    (hi : s.Spares (.leaveItem r browseName accessor)) (h : s.Sparing s.shared)
    (he : leaveItem r browseName accessor s.shared = some (p', next)) : s.Sparing p' := by
  unfold leaveItem at he
  split at he
  · obtain ⟨rfl, -⟩ := Process.into_eq.mp he
    exact h
  · rename_i i item hfind
    split at he
    · split at he
      · obtain ⟨rfl, -⟩ := Process.into_eq.mp he
        intro t monId hpush item' htarget
        obtain ⟨q, hlookup, hget⟩ := Option.bind_eq_some_iff.mp htarget
        exact h.modify i (fun _ => List.erase_subset) hpush hlookup hget
      · obtain ⟨rfl, -⟩ := Process.into_eq.mp he
        exact h
    · rename_i hlast
      obtain ⟨rfl, -⟩ := Process.into_eq.mp he
      intro t monId hpush item' htarget
      obtain ⟨q, hlookup, hget⟩ := Option.bind_eq_some_iff.mp htarget
      simp only at hlookup hget
      -- the id of the item itself is gone from the map
      have hid : monId ≠ item.id := by
        rintro rfl
        rw [AList.lookup_erase] at hlookup
        cases hlookup
      rw [AList.lookup_erase_ne hid] at hlookup
      exact hi (i, item) hfind (Nat.le_of_not_lt hlast) t monId hpush hid item'
        (Option.bind_eq_some_iff.mpr ⟨q, hlookup, hget⟩)

/-- Only `deactivateAllAndPushException` adds to the accessors with an exception. -/
theorem Op.exec_excepted {i : Op V} (hplain : ¬ i.isPlain = true) (hitems : ¬ i.changesItems = true)
    (hraise : ∀ message, i ≠ .raise message true) (he : i.exec p = some (p', next)) :
    ∀ a ∈ p'.excepted, a ∈ p.excepted := by
  intro a ha
  cases i <;> try first | exact absurd rfl hplain | exact absurd rfl hitems
  case raise message deactivating =>
    cases deactivating with
    | true => exact absurd rfl (hraise message)
    | false =>
      obtain ⟨rfl, -⟩ := Process.into_eq.mp he
      exact ha
  case setAsync =>
    obtain ⟨rfl, -⟩ := Process.into_eq.mp he
    cases ha
  case overwrite accessor payload converts =>
    rcases overwriteValue_cases he with ⟨rfl, -⟩ | ⟨rfl, -⟩ <;> exact ha
  all_goals
    simp only [Op.exec, OpcUaBackend.monitorItem] at he
    repeat' split at he
    all_goals
      obtain ⟨rfl, -⟩ := Process.into_eq.mp he
      exact ha

/-- **The waiting pushes** spare the accessors with an exception after an operation under the
condition. -/
theorem Op.exec_sparing {i : Op V} (hi : s.Spares i) (h : s.Sparing s.shared)
    (he : i.exec s.shared = some (p', next)) : s.Sparing p' := by
  by_cases hplain : i.isPlain = true
  · have hp := Op.exec_plain hplain he
    intro t monId hpush item htarget a ha hmem
    rw [World.target, hp.items, hp.subscriptionMap] at htarget
    exact h t monId hpush item htarget a ha (hp.excepted ▸ hmem)
  by_cases hitems : i.changesItems = true
  · cases i <;> try (cases hitems; done)
    case resetItems =>
      obtain ⟨rfl, -⟩ := Process.into_eq.mp he
      intro t monId hpush item htarget
      cases htarget
    case answered result i browseName => exact answered_sparing hi h he
    case enterItem r browseName node accessor => exact enterItem_sparing h he
    case leaveItem r browseName accessor => exact leaveItem_sparing hi h he
  have hframe := Op.exec_frame (by simpa using hplain) (by simpa using hitems) he
  by_cases hraise : ∃ message, i = .raise message true
  · obtain ⟨message, rfl⟩ := hraise
    obtain ⟨rfl, -⟩ := Process.into_eq.mp he
    intro t monId hpush item' htarget a ha hmem
    obtain ⟨item, hitem, hcore⟩ := hframe.target htarget
    rw [(MonitorItem.core_inj.mp hcore).2.1] at ha
    rcases List.mem_append.mp hmem with hraised | hold
    · exact hi t monId hpush item hitem a ha hraised
    · exact h t monId hpush item hitem a ha hold
  · exact h.frame hframe (Op.exec_excepted hplain hitems (fun _ hr => hraise ⟨_, hr⟩) he)

end Operations

/-! ## Every run -/

/-- After the end of `deactivate` asynchronous reading stays off and no push waits; no push waits
for an accessor with an exception. -/
structure Silenced (s : State V α) : Prop extends Settled s where
  asyncReadActive : s.shared.deactivated = true → s.shared.asyncReadActive = false
  waiting : s.shared.deactivated = true → ∀ t, Code.pushes (s.stack t) = []
  sparing : s.Sparing s.shared

/-- The step puts data into the queue of the accessor. -/
def PushesData (s s' : State V α) (a : Accessor) : Prop :=
  ∃ es v, s'.shared.history = es ++ s.shared.history ∧ .pushed a (.data v) ∈ es

theorem PushesData.mem {s s' : State V α} {a : Accessor} {as : List Accessor} (h : PushesData s s' a)
    (hgives : Extends (Event.GivesData as) s.shared.history s'.shared.history) : a ∈ as := by
  obtain ⟨es, v, hhistory, hmem⟩ := h
  obtain ⟨es', hhistory', hes'⟩ := hgives
  obtain rfl : es = es' := List.append_cancel_right (hhistory.symm.trans hhistory')
  exact hes' _ hmem a v rfl

variable [DecidableEq α] {s s' : State V α} {m : Move (Thread α) (Entry V)}

/-- The end of a deactivation and the begin of an activation apart, both flags stay. -/
theorem Op.exec_deactivated {i : Op V} {p p' : Process V} {next : Next (Op V) Lock}
    (hclear : i.isClearAsync = false) (hset : i.isSetAsync = false)
    (he : i.exec p = some (p', next)) :
    p'.asyncReadActive = p.asyncReadActive ∧ p'.deactivated = p.deactivated := by
  constructor
  · by_cases hactivates : i.Activates p
    · exact Op.exec_activates hactivates he
    · exact (Op.exec_fades hactivates ⟨hclear, hset⟩ he).asyncReadActive
  · by_cases hplain : i.isPlain = true
    · exact (Op.exec_plain hplain he).deactivated
    cases i <;> try exact absurd rfl hplain
    case overwrite accessor payload converts =>
      rcases overwriteValue_cases he with ⟨rfl, -⟩ | ⟨rfl, -⟩ <;> rfl
    all_goals
      simp only [Op.exec, OpcUaBackend.monitorItem, OpcUaBackend.enterItem,
        OpcUaBackend.leaveItem] at he
      repeat' split at he
      all_goals first
        | cases hclear; done
        | cases hset; done
        | (obtain ⟨rfl, -⟩ := Process.into_eq.mp he; rfl)
        | (obtain ⟨rfl, -⟩ := Process.out_eq.mp he; rfl)

/-- A push waits because it did, or because its test found an active item. -/
theorem State.pushes_of_step (hs : (threads V α).Step s m s') {t : Thread α} {monId : Nat}
    (h : monId ∈ Code.pushes (s'.stack t)) :
    monId ∈ Code.pushes (s.stack t) ∨
      ∃ value rest item, m = .advance t ∧
        s.stack t = .run (.callback (.dataChange monId value)) :: rest ∧
          s.shared.target monId = some item ∧ item.active = true := by
  obtain ⟨value, hmem⟩ := Code.mem_pushes.mp h
  rcases Step.awaited hs hmem rfl with hold | ⟨i, rest, hm, hstack, hputs⟩
  · exact .inl (Code.mem_pushes.mpr ⟨value, hold⟩)
  · cases hputs with
    | pushData hlookup hget hactive =>
      exact .inr ⟨value, rest, _, hm, hstack, Option.bind_eq_some_iff.mpr ⟨_, hlookup, hget⟩,
        hactive⟩

/-- What every step under the condition preserves. -/
theorem Silenced.step (h : Silenced s) (hg : OnRun Undisturbed s m)
    (hs : (threads V α).Step s m s') : Silenced s' := by
  refine ⟨h.toSettled.step (OnRun.mono (fun _ _ hc => And.left hc) hg) hs, fun hd => ?_,
    fun hd t => ?_, ?_⟩
  · rcases hs.shared with hsame | ⟨u, i, rest, next, rfl, hstack, hexec⟩
    · rw [hsame] at hd ⊢
      exact h.asyncReadActive hd
    by_cases hclear : i.isClearAsync = true
    · cases i <;> cases hclear
      obtain ⟨heq, -⟩ := Process.into_eq.mp hexec
      rw [← heq]
    by_cases hset : i.isSetAsync = true
    · cases i <;> cases hset
      obtain ⟨heq, -⟩ := Process.into_eq.mp hexec
      rw [← heq] at hd
      cases hd
    obtain ⟨hasync, hdeact⟩ := Op.exec_deactivated (by simpa using hclear) (by simpa using hset)
      hexec
    rw [hasync]
    exact h.asyncReadActive (hdeact ▸ hd)
  · -- no push begins to wait after the end of `deactivate`
    refine List.eq_nil_iff_forall_not_mem.mpr fun monId hmem => ?_
    rcases State.pushes_of_step hs hmem with hold | ⟨value, rest, item, rfl, hstack, htarget, hact⟩
    · by_cases hbefore : s.shared.deactivated = true
      · simp [h.waiting hbefore t] at hold
      -- the step is the end of `deactivate`
      rcases hs.shared with hsame | ⟨u, i, rest, next, rfl, hstack, hexec⟩
      · exact hbefore (hsame ▸ hd)
      by_cases hclear : i.isClearAsync = true
      · have hcond : Undisturbed s u i := hg.run hstack
        cases i <;> cases hclear
        have hnone := hcond.2 t
        rw [hnone] at hold
        cases hold
      by_cases hset : i.isSetAsync = true
      · cases i <;> cases hset
        obtain ⟨heq, -⟩ := Process.into_eq.mp hexec
        rw [← heq] at hd
        cases hd
      exact hbefore ((Op.exec_deactivated (by simpa using hclear) (by simpa using hset)
        hexec).2 ▸ hd)
    · -- a new push is for an active item, and there is none
      have hp := Step.plain hs hstack rfl
      have hbefore : s.shared.deactivated = true := hp.deactivated ▸ hd
      have hin := h.inactive (h.asyncReadActive hbefore)
      simp [hin.target htarget] at hact
  · intro t monId hmem item htarget a ha
    rcases State.pushes_of_step hs hmem with
      hold | ⟨value, rest, item', rfl, hstack, hfound, hact⟩
    · rcases hs.shared with hsame | ⟨u, i, rest, next, rfl, hstack, hexec⟩
      · rw [hsame] at htarget ⊢
        exact h.sparing t monId hold item htarget a ha
      · have hcond : Undisturbed s u i := hg.run hstack
        exact Op.exec_sparing hcond.2 h.sparing hexec t monId hold item htarget a ha
    · have hcond : Undisturbed s t _ := hg.run hstack
      have hp := Step.plain hs hstack rfl
      rw [World.target, hp.items, hp.subscriptionMap] at htarget
      rw [hp.excepted]
      obtain rfl : item' = item := Option.some.inj (hfound.symm.trans htarget)
      exact hcond.2 item' htarget hact a ha

theorem reach_silenced (h : (threads V α).machine.Reach (OnRun Undisturbed) s) : Silenced s := by
  refine h.invariant (fun s hinit => ?_) fun s m s' hI hg hs => hI.step hg hs.1
  obtain ⟨hfresh, hstack, -⟩ := hinit
  have hin : s.shared.Inactive := by
    rw [World.Inactive, hfresh.world.items]
    simp
  refine ⟨⟨fun _ => hin, fun _ => hin⟩, fun hd => ?_, fun hd => ?_, fun t monId hmem => ?_⟩
  · simp [hfresh.deactivated] at hd
  · simp [hfresh.deactivated] at hd
  · simp [hstack, Code.pushes] at hmem

/-- **Nothing after the exception.** In every run under the condition, a step that puts data into
the queue of an accessor finds that `deactivateAllAndPushException` gave it no exception, and that
no `deactivate` returned, since the last activation. -/
theorem reach_silent (h : (threads V α).machine.Reach (OnRun Undisturbed) s)
    (hs : (threads V α).machine.step s m s') {a : Accessor} (hpush : PushesData s s' a) :
    a ∉ s'.shared.excepted ∧ s'.shared.deactivated = false := by
  have hI := reach_silenced h
  rcases hs.1.shared with hsame | ⟨t, i, rest, next, rfl, hstack, hexec⟩
  · rw [PushesData, hsame] at hpush
    obtain ⟨es, v, hhistory, hmem⟩ := hpush
    obtain rfl : es = [] := by simpa using hhistory
    cases hmem
  have ha : a ∈ i.givesData s.shared := hpush.mem (Op.exec_givesData hexec)
  cases i <;> try exact absurd ha List.not_mem_nil
  case pushData monId value =>
    have hwaits : monId ∈ Code.pushes (s.stack t) :=
      Code.mem_pushes.mpr ⟨value, by rw [hstack]; exact List.mem_cons_self ..⟩
    obtain ⟨heq, -⟩ := Process.into_eq.mp hexec
    rw [← heq]
    cases htarget : s.shared.target monId with
    | none => simp [Op.givesData, htarget] at ha
    | some item =>
      simp only [Op.givesData, htarget, Option.elim_some] at ha
      refine ⟨hI.sparing t monId hwaits item htarget a ha, ?_⟩
      show s.shared.deactivated = false
      by_contra hd
      simp [hI.waiting (by simpa using hd) t] at hwaits
  case enterItem r browseName node accessor =>
    cases hfind : s.shared.find? browseName with
    | none => simp [Op.givesData, hfind] at ha
    | some found =>
      obtain ⟨i, item⟩ := found
      have hitem := (World.find?_eq_some hfind).1
      simp only [Op.givesData, hfind, Option.elim_some] at ha
      split at ha
      · rename_i hactive
        obtain rfl := List.mem_singleton.mp ha
        obtain ⟨hexcepted, hdeact⟩ := enterItem_excepted hexec
        rw [hexcepted, hdeact]
        refine ⟨by simp, ?_⟩
        -- after the end of `deactivate` the item is not active
        by_contra hd
        have hin := hI.inactive (hI.asyncReadActive (by simpa using hd))
        simp [hin item (List.mem_of_getElem? hitem)] at hactive
      · cases ha

deriving instance DecidableEq for Event

/-- The answers to an iteration in which the server notifies of a value. -/
def notifying (monId : Nat) : Reply Nat UA_StatusCode :=
  { result := .good, callbacks := [.dataChange monId { value := some 5 }] }

/-- A register is read asynchronously, and the client thread dispatches a notification up to the
`n`-th step of the iteration. -/
def notified (n : Nat) : List (Move (Thread Unit) (Entry Nat)) :=
  let iteration : Entry Nat := .runClient (notifying 1) { result := .good }
  Entry.steps (.app ()) (.constructAccessor {} "a" ⟨1, .string "a"⟩ 10) 6
    ++ Entry.steps (.app ()) (.openDevice {} connecting) 40
    ++ Entry.steps (.app ()) (.activateAsyncRead {}) 13
    ++ Entry.steps .client iteration 1 ++ Entry.steps .client iteration n

/-- The client thread takes its next step. -/
def clientStepped (ms : List (Move (Thread Unit) (Entry Nat))) : State Nat Unit :=
  (threads Nat Unit).after ((threads Nat Unit).after (Program.start {}) ms) [.advance .client]

theorem step_clientStepped {ms : List (Move (Thread Unit) (Entry Nat))}
    (h : ((threads Nat Unit).step? ((threads Nat Unit).after (Program.start {}) ms)
      (.advance .client)).isSome = true)
    (hadmits : (threads Nat Unit).admits ((threads Nat Unit).after (Program.start {}) ms).shared
      (clientStepped ms).shared) :
    (threads Nat Unit).machine.step ((threads Nat Unit).after (Program.start {}) ms)
      (.advance .client) (clientStepped ms) :=
  ⟨Program.step_after h, hadmits⟩

/-- The step pushes the value of `notifying`. -/
theorem pushesData_clientStepped {ms : List (Move (Thread Unit) (Entry Nat))}
    (h : (clientStepped ms).shared.history = .pushed 10 (.data { value := some 5 }) ::
      ((threads Nat Unit).after (Program.start {}) ms).shared.history) :
    PushesData ((threads Nat Unit).after (Program.start {}) ms) (clientStepped ms) 10 :=
  ⟨[_], _, h, List.mem_singleton.mpr rfl⟩

theorem reach_silent_notified :
    10 ∉ (clientStepped (notified 4)).shared.excepted ∧
      (clientStepped (notified 4)).shared.deactivated = false :=
  reach_silent (Program.reach_after (notified 4)
    (Program.reach_start Process.fresh_default) (by decide +kernel))
    (step_clientStepped (by decide +kernel) (by decide +kernel))
    (pushesData_clientStepped (by decide +kernel))

/-- An exception is set after the test. -/
def overtaken : List (Move (Thread Unit) (Entry Nat)) :=
  notified 3 ++ Entry.steps (.app ()) (.setException {}) 13 ++ [.advance .client]

/-- The value follows the exception. -/
theorem not_silent_overtaken :
    ¬ ∀ (s s' : State Nat Unit) m a, (threads Nat Unit).machine.Reachable s →
      (threads Nat Unit).machine.step s m s' → PushesData s s' a →
        a ∉ s'.shared.excepted ∧ s'.shared.deactivated = false := by
  intro h
  have hsilent := h _ _ _ 10 (Program.reach_after overtaken
    (Program.reach_start Process.fresh_default) (by decide +kernel))
    (step_clientStepped (by decide +kernel) (by decide +kernel))
    (pushesData_clientStepped (by decide +kernel))
  exact absurd hsilent (by decide +kernel)

end OpcUaBackend
