import OpcUaBackend.Manager.Activation
import OpcUaBackend.Manager.InitialValue

/-!
# Activations that are refused

`activateAsyncRead` is `noexcept`, but `activate` throws when the subscription it needs is
refused. When the registration of an item is refused, an exception goes to the accessors of the
items that are active by then and have none yet: the items after it become active later in the
same loop, and an item whose flag was set before the activation is passed over. So an activation
with a refused registration leaves every accessor of an active item with an exception exactly
when no item was flagged before, and a registration is refused at or behind every item that was
not active before.

## Main definitions

* `Told`: an exception was pushed to the accessor
* `FailsSafely`: nothing escapes, and who is active is told of a refusal
* `Replies.Refuses`, `SafeRefusals`: the requests that are refused, and the condition on them
* `Heard`, `Pass`: what callbacks and the loop over the items keep

## Main results

* `activateAsyncRead_failsSafely_iff`: the condition, and where it is exact
* `setException_noEscape`: nothing escapes from `setException`
-/

namespace OpcUaBackend

open Foundation

variable {V : Type} {w w' w'' : World V}

/-! ## Exceptions that are heard -/

/-- An exception was pushed to the accessor. -/
def Told (es : List (Event V)) (a : Accessor) : Prop :=
  ∃ message, .pushed a (.exception message) ∈ es

/-- An exception was pushed to every accessor of the item. -/
def AllTold (es : List (Event V)) (item : MonitorItem) : Prop := ∀ a ∈ item.accessors, Told es a

theorem AllTold.mono {es es' : List (Event V)} {item item' : MonitorItem} (h : AllTold es item)
    (hsub : es ⊆ es') (haccessors : item'.accessors = item.accessors) : AllTold es' item' := by
  intro a ha
  obtain ⟨message, hm⟩ := h a (haccessors ▸ ha)
  exact ⟨message, hsub hm⟩

/-- Between `w` and `w'`, with the events `es`: a flag is set only where exceptions are pushed; an
item that is deactivated has the flag or was told; and as long as asynchronous reading is active
no item is deactivated. -/
structure Heard (es : List (Event V)) (w w' : World V) : Prop where
  history : w'.history = es ++ w.history
  lists : w'.lists = w.lists
  flag : ∀ (i : Nat) item item', w.items.elems[i]? = some item → w'.items.elems[i]? = some item' →
    item'.hasException = true → item.hasException = true ∨ AllTold es item
  active : ∀ (i : Nat) item item', w.items.elems[i]? = some item →
    w'.items.elems[i]? = some item' → item.active = true →
    item'.active = true ∨ item.hasException = true ∨ AllTold es item
  async : w'.asyncReadActive = true → w.asyncReadActive = true ∧
    ∀ (i : Nat) item item', w.items.elems[i]? = some item → w'.items.elems[i]? = some item' →
      item.active = true → item'.active = true

theorem Heard.trans {es es' : List (Event V)} (h : Heard es w w') (h' : Heard es' w' w'') :
    Heard (es' ++ es) w w'' := by
  have hmid {i : Nat} {item'' : MonitorItem} (hi : w''.items.elems[i]? = some item'') :
      ∃ item', w'.items.elems[i]? = some item' := by
    obtain ⟨item', -, hi', -⟩ := exists_item_of_lists h'.lists hi
    exact ⟨item', hi'⟩
  have hsame {i : Nat} {item item' : MonitorItem} (hi : w.items.elems[i]? = some item)
      (hi' : w'.items.elems[i]? = some item') : item.accessors = item'.accessors := by
    obtain ⟨item₀, -, hi₀, -, hacc⟩ := exists_item_of_lists h.lists hi'
    rw [hi, Option.some_inj] at hi₀
    exact hi₀ ▸ hacc.symm
  have hleft : es' ⊆ es' ++ es := List.subset_append_left es' es
  have hright : es ⊆ es' ++ es := List.subset_append_right es' es
  refine ⟨by rw [h'.history, h.history, List.append_assoc], h'.lists.trans h.lists, ?_, ?_, ?_⟩
  · intro i item item'' hi hi'' hflag
    obtain ⟨item', hi'⟩ := hmid hi''
    rcases h'.flag i item' item'' hi' hi'' hflag with hflag' | htold
    · exact (h.flag i item item' hi hi' hflag').imp_right (·.mono hright rfl)
    · exact .inr (htold.mono hleft (hsame hi hi'))
  · intro i item item'' hi hi'' hact
    obtain ⟨item', hi'⟩ := hmid hi''
    rcases h.active i item item' hi hi' hact with hact' | hflag | htold
    · rcases h'.active i item' item'' hi' hi'' hact' with hact'' | hflag' | htold
      · exact .inl hact''
      · exact .inr ((h.flag i item item' hi hi' hflag').imp_right (·.mono hright rfl))
      · exact .inr (.inr (htold.mono hleft (hsame hi hi')))
    · exact .inr (.inl hflag)
    · exact .inr (.inr (htold.mono hright rfl))
  · intro hasync
    obtain ⟨hasync', hkeep'⟩ := h'.async hasync
    obtain ⟨hasync₀, hkeep⟩ := h.async hasync'
    refine ⟨hasync₀, fun i item item'' hi hi'' hact => ?_⟩
    obtain ⟨item', hi'⟩ := hmid hi''
    exact hkeep' i item' item'' hi' hi'' (hkeep i item item' hi hi' hact)

/-- A step that lets items keep their flags and activity, and may stop asynchronous reading. -/
theorem Heard.of_items {es : List (Event V)} (hhistory : w'.history = es ++ w.history)
    (hlists : w'.lists = w.lists)
    (hitems : ∀ (i : Nat) item item', w.items.elems[i]? = some item →
      w'.items.elems[i]? = some item' →
      (item'.hasException = true → item.hasException = true) ∧ item'.active = item.active)
    (hasync : w'.asyncReadActive = true → w.asyncReadActive = true) : Heard es w w' where
  history := hhistory
  lists := hlists
  flag i item item' hi hi' hflag := .inl ((hitems i item item' hi hi').1 hflag)
  active i item item' hi hi' hact := .inl ((hitems i item item' hi hi').2.trans hact)
  async hasync' := ⟨hasync hasync', fun i item item' hi hi' hact =>
    (hitems i item item' hi hi').2.trans hact⟩

/-- A step that keeps the items. -/
theorem Heard.of_fields {es : List (Event V)} (hhistory : w'.history = es ++ w.history)
    (hitems : w'.items = w.items) (hasync : w'.asyncReadActive = w.asyncReadActive) :
    Heard es w w' :=
  .of_items hhistory (by rw [World.lists, hitems, World.lists])
    (fun i item item' hi hi' => by
      rw [hitems, hi, Option.some_inj] at hi'
      exact ⟨fun hf => hi' ▸ hf, hi' ▸ rfl⟩) fun h => hasync ▸ h

/-! ### Callbacks -/

section Callbacks

variable (w)

theorem told_pushes {message : String} {as : List Accessor} {a : Accessor} :
    Told (pushes (.exception message) as : List (Event V)) a ↔ a ∈ as := by
  constructor
  · rintro ⟨message', hm⟩
    obtain ⟨b, hb, heq⟩ := mem_pushes.mp hm
    obtain ⟨rfl, -⟩ := Event.pushed.inj heq
    exact hb
  · exact fun ha => ⟨message, mem_pushes.mpr ⟨a, ha, rfl⟩⟩

/-- The exceptions that `handleException` pushes. -/
theorem handleException_history (message : String) : (handleException message w).history =
    pushes (.exception message)
      ((w.items.elems.filter MonitorItem.raises).flatMap (·.accessors)) ++ w.history :=
  pushAll_history ..

theorem handleException_getElem? (message : String) (i : Nat) :
    (handleException message w).items.elems[i]? = w.items.elems[i]?.map MonitorItem.raise := by
  unfold handleException
  simp only [pushAll_items, SlotDeque.elems_map, List.getElem?_map]

theorem handleException_async (message : String) :
    (handleException message w).asyncReadActive = w.asyncReadActive :=
  (pushAll_calm _ _ { w with items := w.items.map MonitorItem.raise }).asyncReadActive

theorem raise_fields (item : MonitorItem) : item.raise.active = item.active ∧
    item.raise.isMonitored = item.isMonitored ∧ item.raise.accessors = item.accessors ∧
    (item.hasException = true → item.raise.hasException = true) := by
  unfold MonitorItem.raise
  split
  · exact ⟨rfl, rfl, rfl, fun _ => rfl⟩
  · exact ⟨rfl, rfl, rfl, id⟩

/-- An active item without the flag is told. -/
theorem handleException_told (message : String) {item : MonitorItem}
    (hitem : item ∈ w.items.elems) (hraises : item.raises = true) :
    AllTold (pushes (.exception message)
      ((w.items.elems.filter MonitorItem.raises).flatMap (·.accessors)) : List (Event V)) item :=
  fun _ ha => told_pushes.mpr
    (List.mem_flatMap.mpr ⟨item, List.mem_filter.mpr ⟨hitem, hraises⟩, ha⟩)

theorem handleException_heard (message : String) :
    Heard (pushes (.exception message)
      ((w.items.elems.filter MonitorItem.raises).flatMap (·.accessors))) w
      (handleException message w) where
  history := handleException_history w message
  lists := (handleException_changes w message).lists
  flag i item item' hi hi' hflag := by
    rw [handleException_getElem?, hi, Option.map_some, Option.some_inj] at hi'
    subst hi'
    unfold MonitorItem.raise at hflag
    split at hflag
    · rename_i hraises
      exact .inr (handleException_told w message (List.mem_of_getElem? hi) hraises)
    · exact .inl hflag
  active i item item' hi hi' hact := by
    rw [handleException_getElem?, hi, Option.map_some, Option.some_inj] at hi'
    exact .inl (hi' ▸ (raise_fields item).1.trans hact)
  async hasync := by
    refine ⟨(handleException_async w message).symm.trans hasync, fun i item item' hi hi' hact => ?_⟩
    rw [handleException_getElem?, hi, Option.map_some, Option.some_inj] at hi'
    exact hi' ▸ (raise_fields item).1.trans hact

/-- `deactivate` in a callback, where no subscription is removed. -/
theorem deactivate_fail_fields : (deactivate (·.fail .clientLockDeadlock) w).items =
      (clearActive w).items ∧
    (deactivate (·.fail .clientLockDeadlock) w).history = w.history ∧
    (deactivate (·.fail .clientLockDeadlock) w).asyncReadActive = false := by
  have hhistory : (clearActive w).history = w.history := clearActive_history w
  unfold deactivate
  simp only
  split
  · split <;> exact ⟨rfl, hhistory, trivial⟩
  · exact ⟨rfl, hhistory, trivial⟩

/-- Deactivating in a callback: who was active and without the flag is told first. -/
theorem deactivateAllAndPushException_heard (message : String) :
    Heard (pushes (.exception message)
      ((w.items.elems.filter MonitorItem.raises).flatMap (·.accessors))) w
      (deactivateAllAndPushException (·.fail .clientLockDeadlock) message w) := by
  have hfirst := handleException_heard w message
  obtain ⟨hitems, hhistory, hasync⟩ := deactivate_fail_fields (handleException message w)
  unfold deactivateAllAndPushException
  have hcleared {i : Nat} {item item' : MonitorItem} (hi : w.items.elems[i]? = some item)
      (hi' : (deactivate (·.fail .clientLockDeadlock)
        (handleException message w)).items.elems[i]? = some item') :
      item'.hasException = item.raise.hasException := by
    rw [hitems, clearActive_getElem?, handleException_getElem?, hi, Option.map_some, Option.map_some,
      Option.some_inj] at hi'
    rw [← hi']
    split <;> rfl
  refine ⟨hhistory.trans hfirst.history, ?_, ?_, ?_, ?_⟩
  · exact (deactivateAllAndPushException_changes w (fun w => fail_changes w rfl) message).lists
  · intro i item item' hi hi' hflag
    have hraised : (handleException message w).items.elems[i]? = some item.raise := by
      rw [handleException_getElem?, hi, Option.map_some]
    exact hfirst.flag i item item.raise hi hraised ((hcleared hi hi').symm.trans hflag)
  · intro i item item' hi hi' hact
    refine .inr ?_
    cases hflag : item.hasException with
    | true => exact .inl rfl
    | false =>
      have hraises : item.raises = true := by simp [MonitorItem.raises, hact, hflag]
      exact .inr (handleException_told w message (List.mem_of_getElem? hi) hraises)
  · intro h
    rw [hasync] at h
    cases h

theorem responseHandler_heard (monId : Nat) (value : DataValue V) :
    ∃ es, Heard es w (responseHandler monId value w) := by
  unfold responseHandler
  split
  · exact ⟨[], .of_fields rfl rfl rfl⟩
  · rename_i p _
    split
    · exact ⟨[], .of_fields rfl rfl rfl⟩
    · rename_i item hitem
      split
      · let w₁ : World V := { w with
          items := w.items.mapSlots fun q item =>
            if q = p then { item with hasException := false } else item }
        refine ⟨pushes (.data value) item.accessors, .of_items (pushAll_history ..) ?_ ?_ ?_⟩
        · rw [pushAll_lists]
          refine (mapSlots_quiet w (fun q item => ?_) fun q item => ?_).lists
          · split <;> rfl
          · split <;> exact id
        · intro i other other' hi hi'
          rw [pushAll_items, SlotDeque.getElem?_mapSlots, hi, Option.map_some, Option.some_inj]
            at hi'
          rw [← hi']
          split
          · exact ⟨fun h => (by cases h), rfl⟩
          · exact ⟨id, rfl⟩
        · exact fun h => (pushAll_calm (.data value) item.accessors w₁).asyncReadActive.symm.trans h
      · exact ⟨[], .of_fields rfl rfl rfl⟩

theorem runCallback_heard (c : Callback V) : ∃ es, Heard es w (runCallback w c) := by
  cases c with
  | state c s =>
    have hset : Heard [] w { w with channelState := c, sessionState := s } :=
      .of_fields rfl rfl rfl
    unfold runCallback stateCallback
    simp only
    split
    · exact ⟨_, hset.trans (deactivateAllAndPushException_heard _ _)⟩
    · exact ⟨_, hset⟩
  | inactivity subId =>
    unfold runCallback inactivityCallback
    simp only
    split
    · exact ⟨[] ++ _, (deactivateAllAndPushException_heard w _).trans (.of_fields rfl rfl rfl)⟩
    · exact ⟨[], .of_fields rfl rfl rfl⟩
  | deleteSubscription subId => exact ⟨[], .of_fields rfl rfl rfl⟩
  | dataChange monId value => exact responseHandler_heard w monId value

theorem runCallbacks_heard (cs : List (Callback V)) : ∃ es, Heard es w (runCallbacks cs w) := by
  induction cs generalizing w with
  | nil => exact ⟨[], .of_fields rfl rfl rfl⟩
  | cons c cs ih =>
    obtain ⟨es, h⟩ := runCallback_heard w c
    obtain ⟨es', h'⟩ := ih (runCallback w c)
    exact ⟨es' ++ es, h.trans h'⟩

/-- A call of the library, and what the callbacks inside it do. -/
theorem libraryCall_heard (e : Event V) (cs : List (Callback V)) :
    ∃ es, Heard (es ++ [e]) w (libraryCall e cs w) ∧ ∀ e' ∈ es, e'.isLocal = true := by
  obtain ⟨es, h⟩ := runCallbacks_heard (w.record e) cs
  have hrec : Heard [e] w (w.record e) := .of_fields rfl rfl rfl
  refine ⟨es, hrec.trans h, ?_⟩
  obtain ⟨es', hes', hlocal⟩ := (runCallbacks_frame (w.record e) cs).history
  obtain rfl : es = es' := List.append_cancel_right (h.history.symm.trans hes')
  exact hlocal

end Callbacks

/-! ## Requests -/

/-- The event is a request for a subscription or a monitored item that is not answered GOOD. -/
def Event.isRefusal : Event V → Bool
  | .subscriptionsCreate _ response => !response.serviceResult.isGood
  | .createDataChange _ result => !result.statusCode.isGood
  | _ => false

theorem Event.not_refusal_of_isLocal {e : Event V} (he : e.isLocal = true) :
    e.isRefusal = false := by
  cases e <;> first | rfl | cases he

/-- The registration of the `i`-th item is requested and refused. A new subscription that cleans up
an old one asks for all items; otherwise items are asked for while no item is in the map, and only
those that are not marked as monitored. -/
def Replies.Refuses (r : Replies V) (w : World V) (i : Nat) : Prop :=
  ∃ item, w.items.elems[i]? = some item ∧
    (r.createDataChange i).result.statusCode.isGood = false ∧
    (w.subscriptionActive = false ∧ w.subscriptionID ≠ 0 ∨
      w.subscriptionMap.entries = [] ∧ item.isMonitored = false)

/-! ## The loop over the items -/

section Loop

variable {refuses : Nat → Prop} {s : World V} {a k : Nat} {es es' : List (Event V)}

/-- The loop over the items since the call began in `s`, when the items before the position `a` are
activated and those before `k` asked for, as long as asynchronous reading is active. -/
structure Pass (refuses : Nat → Prop) (s : World V) (a k : Nat) (es : List (Event V))
    (w : World V) : Prop where
  history : w.history = es ++ s.history
  lists : w.lists = s.lists
  flag : ∀ (i : Nat) old item, s.items.elems[i]? = some old → w.items.elems[i]? = some item →
    item.hasException = true → old.hasException = true ∨ AllTold es old
  active : w.asyncReadActive = true →
    ∀ (i : Nat) old item, s.items.elems[i]? = some old → w.items.elems[i]? = some item →
      old.active = true ∨ i < a →
      item.active = true ∨ old.hasException = true ∨ AllTold es old
  refused : w.asyncReadActive = true → ∀ (i : Nat) old, s.items.elems[i]? = some old →
    (∃ j < k, refuses j ∧ (old.active = true ∨ i ≤ j)) → old.hasException = true ∨ AllTold es old

theorem Pass.item (h : Pass refuses s a k es w) {i : Nat} {old : MonitorItem}
    (hi : s.items.elems[i]? = some old) :
    ∃ item, w.items.elems[i]? = some item ∧ item.accessors = old.accessors := by
  obtain ⟨item, -, hitem, -, hacc⟩ := exists_item_of_lists h.lists.symm hi
  exact ⟨item, hitem, hacc.symm⟩

theorem Pass.heard (h : Pass refuses s a k es w) (hh : Heard es' w w') :
    Pass refuses s a k (es' ++ es) w' := by
  have hleft : es' ⊆ es' ++ es := List.subset_append_left es' es
  have hright : es ⊆ es' ++ es := List.subset_append_right es' es
  refine ⟨by rw [hh.history, h.history, List.append_assoc], hh.lists.trans h.lists, ?_, ?_, ?_⟩
  · intro i old item' hi hi' hflag
    obtain ⟨item, hitem, hacc⟩ := h.item hi
    rcases hh.flag i item item' hitem hi' hflag with hflag | htold
    · exact (h.flag i old item hi hitem hflag).imp_right (·.mono hright rfl)
    · exact .inr (htold.mono hleft hacc.symm)
  · intro hasync i old item' hi hi' hor
    obtain ⟨hasync, hkeep⟩ := hh.async hasync
    obtain ⟨item, hitem, -⟩ := h.item hi
    rcases h.active hasync i old item hi hitem hor with hact | hflag | htold
    · exact .inl (hkeep i item item' hitem hi' hact)
    · exact .inr (.inl hflag)
    · exact .inr (.inr (htold.mono hright rfl))
  · intro hasync i old hi hor
    exact (h.refused (hh.async hasync).1 i old hi hor).imp_right (·.mono hright rfl)

/-- No registration is refused at the position. -/
theorem Pass.accepted (h : Pass refuses s a k es w) (hk : ¬ refuses k) :
    Pass refuses s a (k + 1) es w := by
  refine ⟨h.history, h.lists, h.flag, h.active, fun hasync i old hi hor => ?_⟩
  obtain ⟨j, hj, hrefuses, hor⟩ := hor
  have hne : j ≠ k := fun heq => hk (heq ▸ hrefuses)
  exact h.refused hasync i old hi ⟨j, by omega, hrefuses, hor⟩

/-- A refusal at the position is told to the items that are active. -/
theorem Pass.refusal (h : Pass refuses s (k + 1) k es w) (message : String) :
    Pass refuses s (k + 1) (k + 1) (pushes (.exception message)
      ((w.items.elems.filter MonitorItem.raises).flatMap (·.accessors)) ++ es)
      (handleException message w) := by
  have hpass := h.heard (handleException_heard w message)
  refine ⟨hpass.history, hpass.lists, hpass.flag, hpass.active, fun hasync i old hi hor => ?_⟩
  obtain ⟨j, hj, hrefuses, hor⟩ := hor
  by_cases hjk : j < k
  · exact hpass.refused hasync i old hi ⟨j, hjk, hrefuses, hor⟩
  · obtain ⟨item, hitem, hacc⟩ := h.item hi
    have hasync' := ((handleException_heard w message).async hasync).1
    rcases h.active hasync' i old item hi hitem (hor.imp_right fun hle => by omega) with
      hact | hflag | htold
    · cases hflag : item.hasException with
      | true =>
        exact (h.flag i old item hi hitem hflag).imp_right
          (·.mono (List.subset_append_right _ _) rfl)
      | false =>
        have hraises : item.raises = true := by simp [MonitorItem.raises, hact, hflag]
        exact .inr ((handleException_told w message (List.mem_of_getElem? hitem) hraises).mono
          (List.subset_append_left _ _) hacc.symm)
    · exact .inl hflag
    · exact .inr (htold.mono (List.subset_append_right _ _) rfl)

theorem activateItem_fields (i : Nat) (w : World V) :
    ∃ es, (activateItem i w).history = es ++ w.history ∧ (∀ e ∈ es, e.isLocal = true) ∧
      (∀ b, ¬ Told es b) ∧ (activateItem i w).asyncReadActive = w.asyncReadActive := by
  unfold activateItem
  split
  · exact ⟨[], rfl, by simp, by simp [Told], rfl⟩
  · rename_i item _
    exact ⟨[.activated item.browseName item.hasException item.active], rfl,
      by simp [Event.isLocal], by simp [Told], rfl⟩

/-- The start of the loop body: the flags stay, and with asynchronous reading active the item at the
position is active. -/
theorem activateIfAsync_fields (i : Nat) (w : World V) :
    ∃ es, Heard es w (activateIfAsync i w) ∧ (∀ e ∈ es, e.isLocal = true) ∧ (∀ b, ¬ Told es b) ∧
      (activateIfAsync i w).asyncReadActive = w.asyncReadActive ∧
      ∀ (j : Nat) item', (activateIfAsync i w).items.elems[j]? = some item' →
        ∃ item, w.items.elems[j]? = some item ∧ item'.hasException = item.hasException ∧
          (item'.active = true ↔ item.active = true ∨ j = i ∧ w.asyncReadActive = true) := by
  unfold activateIfAsync
  split
  · rename_i hasync
    obtain ⟨es, hhistory, hlocal, htold, hstays⟩ := activateItem_fields i w
    have hitems : ∀ (j : Nat) item', (activateItem i w).items.elems[j]? = some item' →
        ∃ item, w.items.elems[j]? = some item ∧ item'.hasException = item.hasException ∧
          (item'.active = true ↔ item.active = true ∨ j = i ∧ w.asyncReadActive = true) := by
      intro j item' hj
      rw [activateItem_items, SlotDeque.elems_modify, List.getElem?_modify] at hj
      obtain ⟨item, hitem, rfl⟩ := Option.map_eq_some_iff.mp hj
      by_cases hij : i = j
      · exact ⟨item, hitem, by simp [hij], by simp [hij, hasync]⟩
      · exact ⟨item, hitem, by simp [hij], by simp [hij, Ne.symm hij]⟩
    refine ⟨es, ⟨hhistory, (activateItem_changes w i).lists, ?_, ?_, ?_⟩, hlocal, htold, hstays,
      hitems⟩
    · intro j item item' hj hj' hflag
      obtain ⟨item₀, hj₀, hsame, -⟩ := hitems j item' hj'
      rw [hj, Option.some_inj] at hj₀
      exact .inl (hj₀ ▸ hsame ▸ hflag)
    · intro j item item' hj hj' hact
      obtain ⟨item₀, hj₀, -, hactive⟩ := hitems j item' hj'
      rw [hj, Option.some_inj] at hj₀
      exact .inl (hactive.mpr (.inl (hj₀ ▸ hact)))
    · refine fun _ => ⟨hasync, fun j item item' hj hj' hact => ?_⟩
      obtain ⟨item₀, hj₀, -, hactive⟩ := hitems j item' hj'
      rw [hj, Option.some_inj] at hj₀
      exact hactive.mpr (.inl (hj₀ ▸ hact))
  · rename_i hasync
    exact ⟨[], .of_fields rfl rfl rfl, by simp, by simp [Told], rfl,
      fun j item' hj => ⟨item', hj, rfl, by simp [hasync]⟩⟩

/-- The item at the position is activated. -/
theorem Pass.activated (h : Pass refuses s k k es w) (hh : Heard es' w (activateIfAsync k w)) :
    Pass refuses s (k + 1) k (es' ++ es) (activateIfAsync k w) := by
  have hpass := h.heard hh
  refine ⟨hpass.history, hpass.lists, hpass.flag, fun hasync i old item' hi hi' hor => ?_,
    hpass.refused⟩
  by_cases hik : i = k
  · obtain ⟨-, -, -, -, -, hitems⟩ := activateIfAsync_fields k w
    obtain ⟨item, -, -, hactive⟩ := hitems i item' hi'
    exact .inl (hactive.mpr (.inr ⟨hik, (hh.async hasync).1⟩))
  · exact hpass.active hasync i old item' hi hi' (hor.imp_right fun hlt => by omega)

/-! ### Iterations -/

/-- As `Pass`, with what is still to be asked for and the refusals in the history. -/
structure Rounds (r : Replies V) (s : World V) (k : Nat) (es : List (Event V)) (w : World V) :
    Prop where
  pass : Pass (r.Refuses s) s k k es w
  ahead : ∀ i ≥ k, ∀ item, w.items.elems[i]? = some item → (r.Refuses s i ↔
    (r.createDataChange i).result.statusCode.isGood = false ∧ item.isMonitored = false)
  events : (∃ e ∈ es, e.isRefusal = true) ↔ ∃ j < k, r.Refuses s j

theorem Frame.monitored (h : Frame w w') {i : Nat} {item' : MonitorItem}
    (hi : w'.items.elems[i]? = some item') :
    ∃ item, w.items.elems[i]? = some item ∧ item'.isMonitored = item.isMonitored := by
  obtain ⟨item, hitem, hcore⟩ := h.getElem? hi
  exact ⟨item, hitem, (MonitorItem.core_inj.mp hcore).2.2.2.1⟩

theorem monitoringAnswered_monitored (k : Nat) (browseName : String)
    (result : MonitoredItemCreateResult) {i : Nat} (hi : i ≠ k) {item' : MonitorItem}
    (hitem' : (monitoringAnswered k browseName result w).items.elems[i]? = some item') :
    ∃ item, w.items.elems[i]? = some item ∧ item'.isMonitored = item.isMonitored := by
  unfold monitoringAnswered at hitem'
  split at hitem'
  · rw [SlotDeque.getElem?_modify_of_ne w.items _ hi] at hitem'
    exact ⟨item', hitem', rfl⟩
  · exact (handleException_frame w _).monitored hitem'

/-- The answer to a registration request: an exception when it is refused. -/
theorem Pass.answered {r : Replies V} (h : Pass (r.Refuses s) s (k + 1) k es w)
    {result : MonitoredItemCreateResult} (browseName : String)
    (hiff : r.Refuses s k ↔ result.statusCode.isGood = false) :
    ∃ es', Pass (r.Refuses s) s (k + 1) (k + 1) (es' ++ es)
      (monitoringAnswered k browseName result w) ∧ ∀ e ∈ es', e.isRefusal = false := by
  unfold monitoringAnswered
  split
  · rename_i hgood
    have hno : ¬ r.Refuses s k := fun hk => by
      rw [hiff.mp hk] at hgood
      cases hgood
    have hlists := modify_lists w (f := MonitorItem.monitor result.monitoredItemId)
      (fun _ => rfl) k
    refine ⟨[], (h.accepted hno).heard (.of_items rfl hlists ?_ id), by simp⟩
    intro i item item' hi hi'
    rw [SlotDeque.elems_modify, List.getElem?_modify] at hi'
    obtain ⟨item₀, hi₀, rfl⟩ := Option.map_eq_some_iff.mp hi'
    rw [hi, Option.some_inj] at hi₀
    subst hi₀
    split <;> exact ⟨id, rfl⟩
  · refine ⟨_, h.refusal _, fun e he => ?_⟩
    obtain ⟨b, -, rfl⟩ := mem_pushes.mp he
    rfl

/-- **One iteration.** -/
theorem Rounds.step {r : Replies V} (h : Rounds r s k es w) (ho : s.Occupied) :
    ∃ es', Rounds r s (k + 1) es' (addMonitoredItem (r.createDataChange k) k w) := by
  obtain ⟨es₁, hheard, hlocal, -, -, -⟩ := activateIfAsync_fields k w
  have hpass := h.pass.activated hheard
  have hframe := activateIfAsync_frame w k
  -- the activation of the item does not touch the answers that are ahead
  have hahead : ∀ i ≥ k, ∀ item', (activateIfAsync k w).items.elems[i]? = some item' →
      (r.Refuses s i ↔
        (r.createDataChange i).result.statusCode.isGood = false ∧ item'.isMonitored = false) := by
    intro i hi item' hitem'
    obtain ⟨item, hitem, hmon⟩ := hframe.monitored hitem'
    rw [hmon]
    exact h.ahead i hi item hitem
  -- a refusal of the first `k + 1` is one of the first `k` or the one of this iteration
  have hsucc {P : Prop} (hk : P ↔ r.Refuses s k) :
      (∃ e ∈ es, e.isRefusal = true) ∨ P ↔ ∃ j < k + 1, r.Refuses s j := by
    rw [h.events, hk]
    constructor
    · rintro (⟨j, hj, hrefuses⟩ | hrefuses)
      · exact ⟨j, by omega, hrefuses⟩
      · exact ⟨k, by omega, hrefuses⟩
    · rintro ⟨j, hj, hrefuses⟩
      by_cases hjk : j < k
      · exact .inl ⟨j, hjk, hrefuses⟩
      · exact .inr ((by omega : j = k) ▸ hrefuses)
  rcases addMonitoredItem_cases w (r.createDataChange k) k with
    ⟨heq, hmon⟩ | ⟨heq, item, hitem, hnil⟩ | ⟨item, first, hitem, hmon, hfirst, heq⟩
  · -- nothing is asked for
    have hno : ¬ r.Refuses s k := by
      intro hk
      obtain ⟨old, hold, -⟩ := id hk
      obtain ⟨item, hitem, -⟩ := hpass.item hold
      have hnot := ((hahead k le_rfl item hitem).mp hk).2
      rw [hmon item hitem] at hnot
      cases hnot
    rw [heq]
    refine ⟨es₁ ++ es, hpass.accepted hno, fun i hi => hahead i (by omega), ?_⟩
    rw [← hsucc (P := False) (iff_of_false id hno), or_false]
    constructor
    · -- a refusal among the events is of an earlier iteration
      rintro ⟨e, he, href⟩
      rcases List.mem_append.mp he with he | he
      · rw [Event.not_refusal_of_isLocal (hlocal e he)] at href
        cases href
      · exact ⟨e, he, href⟩
    · exact fun ⟨e, he, href⟩ => ⟨e, List.mem_append_right _ he, href⟩
  · -- the source takes the first accessor without a test; there is always one
    have ho' : World.Occupied (activateIfAsync k w) := by
      rw [World.Occupied, hpass.lists]
      exact ho
    exact absurd hnil (ho'.accessors item hitem)
  · -- the item is asked for
    obtain ⟨es₂, hcall, hlocal₂⟩ := libraryCall_heard (activateIfAsync k w)
      (.createDataChange (monitoringRequest (activateIfAsync k w) item first)
        (r.createDataChange k).result) (r.createDataChange k).callbacks
    have hframe₂ := libraryCall_frame (activateIfAsync k w)
      (.createDataChange (monitoringRequest (activateIfAsync k w) item first)
        (r.createDataChange k).result) (r.createDataChange k).callbacks
    have hiff : r.Refuses s k ↔ (r.createDataChange k).result.statusCode.isGood = false := by
      rw [hahead k le_rfl item hitem, hmon]
      simp
    obtain ⟨es₃, hpass₃, hno₃⟩ := (hpass.heard hcall).answered item.browseName hiff
    rw [heq]
    refine ⟨_, hpass₃, fun i hi item' hitem' => ?_, ?_⟩
    · obtain ⟨item₂, hitem₂, hmon₂⟩ := monitoringAnswered_monitored k item.browseName
        (r.createDataChange k).result (by omega) hitem'
      obtain ⟨item₁, hitem₁, hmon₁⟩ := hframe₂.monitored hitem₂
      rw [hmon₂, hmon₁]
      exact hahead i (by omega) item₁ hitem₁
    · rw [← hsucc (P := (r.createDataChange k).result.statusCode.isGood = false) hiff.symm]
      constructor
      · rintro ⟨e, he, href⟩
        simp only [List.mem_append, List.mem_singleton] at he
        rcases he with he | (he | rfl) | he | he
        · rw [hno₃ e he] at href
          cases href
        · rw [Event.not_refusal_of_isLocal (hlocal₂ e he)] at href
          cases href
        · exact .inr (by simpa [Event.isRefusal] using href)
        · rw [Event.not_refusal_of_isLocal (hlocal e he)] at href
          cases href
        · exact .inl ⟨e, he, href⟩
      · rintro (⟨e, he, href⟩ | hbad)
        · exact ⟨e, by simp [he], href⟩
        · exact ⟨.createDataChange (monitoringRequest (activateIfAsync k w) item first)
            (r.createDataChange k).result, by simp, by simp [Event.isRefusal, hbad]⟩

/-- **The loop.** -/
theorem Rounds.loop {r : Replies V} (h : Rounds r s 0 es w) (ho : s.Occupied) (n : Nat) :
    ∃ es', Rounds r s n es'
      ((List.range n).foldl (fun w i => addMonitoredItem (r.createDataChange i) i w) w) := by
  induction n with
  | zero => exact ⟨es, h⟩
  | succ n ih =>
    obtain ⟨es', hrounds⟩ := ih
    rw [List.range_succ, List.foldl_concat]
    exact hrounds.step ho

/-! ### Without callbacks -/

/-- No callback runs inside the requests of an activation. -/
structure Replies.Uninterrupted (r : Replies V) : Prop where
  subscriptionsDelete : r.subscriptionsDelete.callbacks = []
  subscriptionsCreate : r.subscriptionsCreate.callbacks = []
  createDataChange : ∀ i, (r.createDataChange i).callbacks = []

/-- As `Pass` for a loop without callbacks: who is active, and who is told at most. -/
structure Exact (refuses : Nat → Prop) (s : World V) (a k : Nat) (es : List (Event V))
    (w : World V) : Prop where
  async : w.asyncReadActive = true
  items : ∀ (i : Nat) old item, s.items.elems[i]? = some old → w.items.elems[i]? = some item →
    (item.active = true ↔ old.active = true ∨ i < a) ∧
      (old.hasException = true → item.hasException = true)
  told : ∀ b, Told es b → ∃ (i : Nat) (old : MonitorItem), s.items.elems[i]? = some old ∧
    b ∈ old.accessors ∧ old.hasException = false ∧
      ∃ j < k, refuses j ∧ (old.active = true ∨ i ≤ j)

theorem told_append {b : Accessor} : Told (es' ++ es) b ↔ Told es' b ∨ Told es b := by
  unfold Told
  simp only [List.mem_append, exists_or]

theorem told_singleton {e : Event V} (he : e.isSignal = false) (b : Accessor) : ¬ Told [e] b := by
  rintro ⟨message, hm⟩
  rw [← List.mem_singleton.mp hm] at he
  cases he

/-- A step that keeps flags and activity, and tells nobody. -/
theorem Exact.of_items (h : Exact refuses s a k es w) (hno : ∀ b, ¬ Told es' b)
    (hitems : ∀ (i : Nat) item', w'.items.elems[i]? = some item' →
      ∃ item, w.items.elems[i]? = some item ∧ item'.active = item.active ∧
        item'.hasException = item.hasException)
    (hasync : w'.asyncReadActive = w.asyncReadActive) :
    Exact refuses s a k (es' ++ es) w' := by
  refine ⟨hasync.trans h.async, fun i old item' hi hi' => ?_, fun b hb => ?_⟩
  · obtain ⟨item, hitem, hact, hflag⟩ := hitems i item' hi'
    rw [hact, hflag]
    exact h.items i old item hi hitem
  · exact h.told b ((told_append.mp hb).resolve_left (hno b))

theorem Exact.activated (h : Exact refuses s k k es w) (hno : ∀ b, ¬ Told es' b) :
    Exact refuses s (k + 1) k (es' ++ es) (activateIfAsync k w) := by
  obtain ⟨-, -, -, -, hasync, hitems⟩ := activateIfAsync_fields k w
  refine ⟨hasync.trans h.async, fun i old item' hi hi' => ?_, fun b hb => ?_⟩
  · obtain ⟨item, hitem, hflag, hact⟩ := hitems i item' hi'
    obtain ⟨hwas, hkeeps⟩ := h.items i old item hi hitem
    refine ⟨?_, fun hold => hflag.trans (hkeeps hold)⟩
    rw [hact, hwas, and_iff_left h.async, or_assoc, Nat.lt_succ_iff_lt_or_eq]
  · exact h.told b ((told_append.mp hb).resolve_left (hno b))

theorem Exact.mono (h : Exact refuses s a k es w) : Exact refuses s a (k + 1) es w :=
  ⟨h.async, h.items, fun b hb =>
    let ⟨i, old, hi, hin, hflag, j, hj, hrefuses⟩ := h.told b hb
    ⟨i, old, hi, hin, hflag, j, by omega, hrefuses⟩⟩

theorem Exact.refusal (h : Exact refuses s (k + 1) k es w) (hlists : w.lists = s.lists)
    (hk : refuses k) (message : String) :
    Exact refuses s (k + 1) (k + 1) (pushes (.exception message)
      ((w.items.elems.filter MonitorItem.raises).flatMap (·.accessors)) ++ es)
      (handleException message w) := by
  refine ⟨(handleException_async w message).trans h.async, fun i old item' hi hi' => ?_,
    fun b hb => ?_⟩
  · rw [handleException_getElem?] at hi'
    obtain ⟨item, hitem, rfl⟩ := Option.map_eq_some_iff.mp hi'
    obtain ⟨hact, hkeeps⟩ := h.items i old item hi hitem
    obtain ⟨hsame, -, -, hflag⟩ := raise_fields item
    exact ⟨hsame ▸ hact, fun hold => hflag (hkeeps hold)⟩
  · rcases told_append.mp hb with hb | hb
    · obtain ⟨item, hitem, hb⟩ := List.mem_flatMap.mp (told_pushes.mp hb)
      obtain ⟨hmem, hraises⟩ := List.mem_filter.mp hitem
      obtain ⟨i, hi⟩ := List.mem_iff_getElem?.mp hmem
      obtain ⟨old, -, hold, -, hacc⟩ := exists_item_of_lists hlists hi
      obtain ⟨hact, hkeeps⟩ := h.items i old item hold hi
      obtain ⟨hactive, hnoflag⟩ : item.active = true ∧ item.hasException = false := by
        simpa [MonitorItem.raises] using hraises
      refine ⟨i, old, hold, hacc ▸ hb, ?_, k, by omega, hk, ?_⟩
      · by_contra hflag
        rw [hkeeps (by simpa using hflag)] at hnoflag
        cases hnoflag
      · exact (hact.mp hactive).imp_right fun hlt => by omega
    · obtain ⟨i, old, hi, hin, hflag, j, hj, hrefuses⟩ := h.told b hb
      exact ⟨i, old, hi, hin, hflag, j, by omega, hrefuses⟩

/-- One iteration without callbacks. -/
theorem Exact.step {r : Replies V} (h : Exact (r.Refuses s) s k k es w)
    (hrounds : Rounds r s k es w) (hcalm : (r.createDataChange k).callbacks = [])
    (ho : s.Occupied)
    (hes' : (addMonitoredItem (r.createDataChange k) k w).history = es' ++ s.history) :
    Exact (r.Refuses s) s (k + 1) (k + 1) es'
      (addMonitoredItem (r.createDataChange k) k w) := by
  obtain ⟨es₁, hheard, -, hno, -, -⟩ := activateIfAsync_fields k w
  have hexact := h.activated hno
  have hpass := hrounds.pass.activated hheard
  have hevents {es'' : List (Event V)}
      (h'' : (addMonitoredItem (r.createDataChange k) k w).history = es'' ++ s.history) :
      es'' = es' := List.append_cancel_right (h''.symm.trans hes')
  rcases addMonitoredItem_cases w (r.createDataChange k) k with
    ⟨heq, hmon⟩ | ⟨heq, item, hitem, hnil⟩ | ⟨item, first, hitem, hmon, hfirst, heq⟩
  · rw [← hevents (by rw [heq]; exact hpass.history), heq]
    exact hexact.mono
  · have ho' : World.Occupied (activateIfAsync k w) := by
      rw [World.Occupied, hpass.lists]
      exact ho
    exact absurd hnil (ho'.accessors item hitem)
  · let request : Event V := .createDataChange (monitoringRequest (activateIfAsync k w) item first)
      (r.createDataChange k).result
    -- no callback runs inside the request
    have hcall : libraryCall request (r.createDataChange k).callbacks (activateIfAsync k w) =
        (activateIfAsync k w).record request := by
      rw [hcalm]
      rfl
    rw [hcall] at heq
    have hexact₂ : Exact (r.Refuses s) s (k + 1) k ([request] ++ (es₁ ++ es))
        ((activateIfAsync k w).record request) :=
      hexact.of_items (told_singleton rfl) (fun i item' hi => ⟨item', hi, rfl, rfl⟩) rfl
    have hhistory₂ : ((activateIfAsync k w).record request).history =
        [request] ++ (es₁ ++ es) ++ s.history := by
      rw [List.append_assoc, ← hpass.history]
      rfl
    unfold monitoringAnswered at heq
    by_cases hgood : (r.createDataChange k).result.statusCode.isGood = true
    · -- accepted: the id is entered and the item is monitored
      rw [if_pos hgood] at heq
      rw [← hevents (by rw [heq]; exact hhistory₂), heq]
      have hnone : ∀ b, ¬ Told ([] : List (Event V)) b := by simp [Told]
      refine Exact.mono (hexact₂.of_items hnone ?_ rfl)
      intro i item' hi'
      rw [SlotDeque.elems_modify, List.getElem?_modify] at hi'
      obtain ⟨item₀, hi₀, rfl⟩ := Option.map_eq_some_iff.mp hi'
      refine ⟨item₀, hi₀, ?_, ?_⟩ <;> split <;> rfl
    · -- refused: `handleException` tells the active items whose flag is clear
      rw [if_neg hgood] at heq
      obtain ⟨item₀, hitem₀, hmon₀⟩ := (activateIfAsync_frame w k).monitored hitem
      have hk : r.Refuses s k := (hrounds.ahead k le_rfl item₀ hitem₀).mpr
        ⟨by simpa using hgood, hmon₀ ▸ hmon⟩
      have hlast := hexact₂.refusal hpass.lists hk ("Failed to add monitored item for node: " ++
        item.browseName ++ " Error: " ++ (r.createDataChange k).result.statusCode.name)
      have hhistory := (handleException_history ((activateIfAsync k w).record request)
        ("Failed to add monitored item for node: " ++ item.browseName ++ " Error: "
          ++ (r.createDataChange k).result.statusCode.name)).trans
        (congrArg _ hhistory₂ |>.trans (List.append_assoc ..).symm)
      rw [← hevents (by rw [heq]; exact hhistory), heq]
      exact hlast

theorem Exact.loop {r : Replies V} (h : Exact (r.Refuses s) s 0 0 es w)
    (hrounds : Rounds r s 0 es w) (hr : r.Uninterrupted) (ho : s.Occupied) (n : Nat) :
    ∃ es', Rounds r s n es'
        ((List.range n).foldl (fun w i => addMonitoredItem (r.createDataChange i) i w) w) ∧
      Exact (r.Refuses s) s n n es'
        ((List.range n).foldl (fun w i => addMonitoredItem (r.createDataChange i) i w) w) := by
  induction n with
  | zero => exact ⟨es, hrounds, h⟩
  | succ n ih =>
    obtain ⟨es', hrounds', hexact'⟩ := ih
    rw [List.range_succ, List.foldl_concat]
    obtain ⟨es'', hrounds''⟩ := hrounds'.step ho
    exact ⟨es'', hrounds'',
      hexact'.step hrounds' (hr.createDataChange n) ho hrounds''.pass.history⟩

end Loop

/-! ## The subscription that is needed -/

section Ensure

variable {r : Replies V} {w₁ : World V}

/-- The old subscription is cleaned up when a new one is created. -/
def World.Renews (w : World V) : Prop := w.subscriptionActive = false ∧ w.subscriptionID ≠ 0

theorem resetMonitoredItems_heard (w : World V) : Heard [] w (resetMonitoredItems w) := by
  refine .of_items rfl (resetMonitoredItems_changes w).lists (fun i item item' hi hi' => ?_) id
  have hi'' : (w.items.elems.map fun item => { item with isMonitored := false })[i]? =
      some item' := hi'
  rw [List.getElem?_map, hi, Option.map_some, Option.some_inj] at hi''
  subst hi''
  exact ⟨id, rfl⟩

/-- What the clean-up does: nothing is monitored any more and the map is empty. -/
theorem cleanUpSubscription_heard (reply : Reply V UA_StatusCode) (w : World V) :
    ∃ es, Heard es w (cleanUpSubscription reply w) ∧ (∀ e ∈ es, e.isRefusal = false) ∧
      ((cleanUpSubscription reply w).subscriptionMap.entries = [] ↔
        w.subscriptionID ≠ 0 ∨ w.subscriptionMap.entries = []) ∧
      ∀ (i : Nat) item', (cleanUpSubscription reply w).items.elems[i]? = some item' →
        ∃ item, w.items.elems[i]? = some item ∧
          (item'.isMonitored = false ↔ w.subscriptionID ≠ 0 ∨ item.isMonitored = false) := by
  unfold cleanUpSubscription
  by_cases hid : w.subscriptionID ≠ 0
  · rw [if_pos hid]
    let w₁ := libraryCall (.subscriptionsDelete w.subscriptionID reply.result) reply.callbacks w
    obtain ⟨es, hcall, hlocal⟩ := libraryCall_heard w
      (.subscriptionsDelete w.subscriptionID reply.result) reply.callbacks
    have hset : Heard [] w₁ { w₁ with subscriptionID := 0 } := .of_fields rfl rfl rfl
    refine ⟨_, (hcall.trans hset).trans (resetMonitoredItems_heard _), ?_, ?_, ?_⟩
    · intro e he
      simp only [List.nil_append, List.mem_append, List.mem_singleton] at he
      rcases he with he | rfl
      · exact Event.not_refusal_of_isLocal (hlocal e he)
      · rfl
    · exact iff_of_true rfl (.inl hid)
    · intro i item' hi'
      have hi'' : (w₁.items.elems.map fun item => { item with isMonitored := false })[i]? =
          some item' := hi'
      rw [List.getElem?_map] at hi''
      obtain ⟨item₁, hi₁, rfl⟩ := Option.map_eq_some_iff.mp hi''
      obtain ⟨item, -, hi, -⟩ := exists_item_of_lists hcall.lists hi₁
      exact ⟨item, hi, iff_of_true rfl (.inl hid)⟩
  · rw [if_neg hid]
    exact ⟨[], .of_fields rfl rfl rfl, by simp, by simp [hid], fun i item' hi' =>
      ⟨item', hi', by simp [hid]⟩⟩

/-- The subscription is there: what it asks for is what `Refuses` says. -/
theorem ensureSubscription_heard (hr : ensureSubscription r w = .returned w₁) :
    ∃ es, Heard es w w₁ ∧ (∀ e ∈ es, e.isRefusal = false) ∧
      (w₁.subscriptionMap.entries = [] ↔ w.Renews ∨ w.subscriptionMap.entries = []) ∧
      ∀ (i : Nat) item', w₁.items.elems[i]? = some item' →
        ∃ item, w.items.elems[i]? = some item ∧
          (item'.isMonitored = false ↔ w.Renews ∨ item.isMonitored = false) := by
  unfold ensureSubscription at hr
  cases hactive : w.subscriptionActive with
  | true =>
    rw [if_pos hactive] at hr
    obtain rfl := Result.returned.inj hr
    have hno : ¬ w.Renews := fun h => absurd (hactive.symm.trans h.1) (by decide)
    exact ⟨[], .of_fields rfl rfl rfl, by simp, by simp [hno], fun i item' hi' =>
      ⟨item', hi', by simp [hno]⟩⟩
  | false =>
    rw [if_neg (by rw [hactive]; decide)] at hr
    have hrenews : w.Renews ↔ w.subscriptionID ≠ 0 := and_iff_right hactive
    rw [hrenews]
    obtain ⟨es, hclean, hno, hmap, hmon⟩ := cleanUpSubscription_heard r.subscriptionsDelete w
    unfold createSubscription at hr
    generalize cleanUpSubscription r.subscriptionsDelete w = w₀ at hr hclean hmap hmon
    obtain ⟨es', hcall, hlocal⟩ := libraryCall_heard w₀
      (.subscriptionsCreate w₀.publishingInterval r.subscriptionsCreate.result)
      r.subscriptionsCreate.callbacks
    have hframe := libraryCall_frame w₀
      (.subscriptionsCreate w₀.publishingInterval r.subscriptionsCreate.result)
      r.subscriptionsCreate.callbacks
    unfold requestSubscription at hr
    simp only at hr
    split at hr
    · rename_i hgood
      obtain rfl := Result.returned.inj hr
      refine ⟨[] ++ ((es' ++ [_]) ++ es), (hclean.trans hcall).trans (.of_fields rfl rfl rfl),
        fun e he => ?_, ?_, fun i item' hi' => ?_⟩
      · simp only [List.nil_append, List.mem_append, List.mem_singleton] at he
        rcases he with (he | rfl) | he
        · exact Event.not_refusal_of_isLocal (hlocal e he)
        · simp [Event.isRefusal, hgood]
        · exact hno e he
      · exact hframe.subscriptionMap ▸ hmap
      · obtain ⟨item₀, hi₀, hsame⟩ := hframe.monitored hi'
        rw [hsame]
        exact hmon i item₀ hi₀
    · cases hr

/-- Without callbacks flags and activity stay, and nobody is told. -/
theorem ensureSubscription_exact (hr : ensureSubscription r w = .returned w₁)
    (hcalm : r.Uninterrupted) {es : List (Event V)} (hes : w₁.history = es ++ w.history) :
    (∀ b, ¬ Told es b) ∧ ∀ (i : Nat) item', w₁.items.elems[i]? = some item' →
      ∃ item, w.items.elems[i]? = some item ∧ item'.active = item.active ∧
        item'.hasException = item.hasException := by
  have hrefl (w : World V) : ∀ (i : Nat) item', w.items.elems[i]? = some item' →
      ∃ item, w.items.elems[i]? = some item ∧ item'.active = item.active ∧
        item'.hasException = item.hasException := fun i item' hi' => ⟨item', hi', rfl, rfl⟩
  have hclean : ∃ es₀, (cleanUpSubscription r.subscriptionsDelete w).history = es₀ ++ w.history ∧
      (∀ b, ¬ Told es₀ b) ∧ ∀ (i : Nat) item',
        (cleanUpSubscription r.subscriptionsDelete w).items.elems[i]? = some item' →
        ∃ item, w.items.elems[i]? = some item ∧ item'.active = item.active ∧
          item'.hasException = item.hasException := by
    unfold cleanUpSubscription
    split
    · unfold removeSubscription libraryCall
      rw [hcalm.subscriptionsDelete]
      refine ⟨[.subscriptionsDelete w.subscriptionID r.subscriptionsDelete.result], rfl,
        told_singleton rfl, fun i item' hi' => ?_⟩
      have hi'' : (w.items.elems.map fun item => { item with isMonitored := false })[i]? =
          some item' := hi'
      rw [List.getElem?_map] at hi''
      obtain ⟨item, hi, rfl⟩ := Option.map_eq_some_iff.mp hi''
      exact ⟨item, hi, rfl, rfl⟩
    · exact ⟨[], rfl, by simp [Told], hrefl w⟩
  unfold ensureSubscription at hr
  split at hr
  · obtain rfl := Result.returned.inj hr
    obtain rfl : es = [] := List.append_cancel_right (hes.symm.trans (List.nil_append _).symm)
    exact ⟨by simp [Told], hrefl w⟩
  · obtain ⟨es₀, hes₀, hno₀, hitems₀⟩ := hclean
    unfold createSubscription at hr
    generalize cleanUpSubscription r.subscriptionsDelete w = w₀ at hr hes₀ hitems₀
    unfold requestSubscription libraryCall at hr
    rw [hcalm.subscriptionsCreate] at hr
    simp only at hr
    split at hr
    · obtain rfl := Result.returned.inj hr
      have hes₁ : es = [.subscriptionsCreate w₀.publishingInterval r.subscriptionsCreate.result] ++
          es₀ := by
        refine List.append_cancel_right (hes.symm.trans ?_)
        rw [List.append_assoc, ← hes₀]
        rfl
      refine ⟨fun b hb => ?_, hitems₀⟩
      rcases told_append.mp (hes₁ ▸ hb) with hb | hb
      · exact told_singleton rfl b hb
      · exact hno₀ b hb
    · cases hr

end Ensure

/-! ## Activations -/

/-- No exception leaves `activateAsyncRead`; and when a request of it is not answered GOOD,
asynchronous reading is not active in the end, or an exception was pushed to every accessor of
every active item. -/
structure FailsSafely (r : Replies V) (w : World V) : Prop where
  noEscape : w.isFunctional = true → (activate r { w with subscriptionManager := true }).Returns
  told : (∃ e ∈ newEvents w.history (activateAsyncRead r w).history, e.isRefusal = true) →
    (activateAsyncRead r w).asyncReadActive = false ∨
      ∀ item ∈ (activateAsyncRead r w).items.elems, item.active = true →
        AllTold (newEvents w.history (activateAsyncRead r w).history) item

/-- The subscription is there or granted; and if a registration is refused, then no item has the
flag `hasException`, and each is active already or a registration is refused at or behind it. -/
def SafeRefusals (r : Replies V) (w : World V) : Prop :=
  (w.subscriptionActive = true ∨ r.subscriptionsCreate.result.serviceResult.isGood = true) ∧
    ((∃ j, r.Refuses w j) → ∀ (i : Nat) item, w.items.elems[i]? = some item →
      item.hasException = false ∧ (item.active = true ∨ ∃ j, i ≤ j ∧ r.Refuses w j))

section Activations

variable {r : Replies V} {w₁ : World V}

theorem activate_returns (r : Replies V) (w : World V) :
    (activate r w).Returns ↔
      w.subscriptionActive = true ∨ r.subscriptionsCreate.result.serviceResult.isGood = true := by
  unfold activate
  rw [andThen_returns, ensureSubscription_returns]
  exact fun _ => trivial

theorem start_async (w : World V) : (start w).asyncReadActive = w.asyncReadActive := by
  unfold start
  split
  · simp only
    split <;> rfl
  · rfl

theorem activateAsyncRead_fields (hfun : w.isFunctional = true)
    (hr : ensureSubscription r { w with subscriptionManager := true } = .returned w₁) :
    (activateAsyncRead r w).items = (activateSubscribed r w₁).items ∧
      (activateAsyncRead r w).history = (activateSubscribed r w₁).history ∧
      (activateAsyncRead r w).asyncReadActive = (activateSubscribed r w₁).asyncReadActive := by
  unfold activateAsyncRead activate
  rw [if_pos hfun, hr]
  simp only [Result.andThen]
  split
  · obtain ⟨hitems, -, hhistory⟩ := start_fields (activateSubscribed r w₁)
    exact ⟨hitems, hhistory, start_async _⟩
  · exact ⟨rfl, rfl, rfl⟩

/-- Where the loop over the items does not ask for them, no request of the activation is
refused. -/
theorem activateItems_events (w : World V) :
    ∃ es, (activateItems w).history = es ++ w.history ∧ ∀ e ∈ es, e.isRefusal = false := by
  refine ⟨_, rfl, fun e he => ?_⟩
  obtain ⟨item, -, rfl⟩ := List.mem_map.mp (List.mem_reverse.mp he)
  rfl

/-- The loop begins. -/
theorem rounds_start {s : World V} {es : List (Event V)} (hh : Heard es s w₁)
    (hno : ∀ e ∈ es, e.isRefusal = false) (hmap : s.Renews ∨ s.subscriptionMap.entries = [])
    (hmon : ∀ (i : Nat) item', w₁.items.elems[i]? = some item' →
      ∃ item, s.items.elems[i]? = some item ∧
        (item'.isMonitored = false ↔ s.Renews ∨ item.isMonitored = false)) :
    Rounds r s 0 es { w₁ with asyncReadActive := true } := by
  refine ⟨⟨hh.history, hh.lists, hh.flag, fun _ i old item hi hi' hor => ?_, fun _ i old _ h => ?_⟩,
    fun i _ item' hi' => ?_, ?_⟩
  · exact hh.active i old item hi hi' (hor.resolve_right (Nat.not_lt_zero i))
  · obtain ⟨j, hj, -⟩ := h
    exact absurd hj (Nat.not_lt_zero j)
  · obtain ⟨item, hi, hiff⟩ := hmon i item' hi'
    rw [hiff]
    constructor
    · rintro ⟨item₀, hi₀, hbad, hor⟩
      rw [hi, Option.some_inj] at hi₀
      subst hi₀
      exact ⟨hbad, hor.imp_right And.right⟩
    · rintro ⟨hbad, hor⟩
      refine ⟨item, hi, hbad, ?_⟩
      rcases hor with hrenews | hnot
      · exact .inl hrenews
      · exact hmap.imp_right fun hnil => ⟨hnil, hnot⟩
  · constructor
    · rintro ⟨e, he, href⟩
      rw [hno e he] at href
      cases href
    · rintro ⟨j, hj, -⟩
      exact absurd hj (Nat.not_lt_zero j)

/-- An activation whose subscription is there either asks for items in the loop, or asks for none
because none is refused. -/
theorem activation_cases (ho : w.Occupied) (hfun : w.isFunctional = true)
    (hsub : w.subscriptionActive = true ∨
      r.subscriptionsCreate.result.serviceResult.isGood = true) :
    (∃ es n, (activateAsyncRead r w).history = es ++ w.history ∧ n = w.items.size ∧
      ∃ w', (activateAsyncRead r w).items = w'.items ∧
        (activateAsyncRead r w).asyncReadActive = w'.asyncReadActive ∧
        Rounds r w n es w' ∧ (r.Uninterrupted → Exact (r.Refuses w) w n n es w')) ∨
      (¬ ∃ j, r.Refuses w j) ∧ ∃ es, (activateAsyncRead r w).history = es ++ w.history ∧
        ∀ e ∈ es, e.isRefusal = false := by
  let w₀ : World V := { w with subscriptionManager := true }
  have ho₀ : w₀.Occupied := ho
  have hret : (ensureSubscription r w₀).Returns := (ensureSubscription_returns r w₀).mpr hsub
  cases hr : ensureSubscription r w₀ with
  | threw message w₁ =>
    rw [hr] at hret
    exact hret.elim
  | returned w₁ =>
    obtain ⟨hitems, hhistory, hasync⟩ := activateAsyncRead_fields hfun hr
    obtain ⟨es, hh, hno, hmap, hmon⟩ := ensureSubscription_heard hr
    have hsize : w₁.items.size = w.items.size := by
      have hlen := congrArg List.length hh.lists
      simpa [World.lists, SlotDeque.size, w₀] using hlen
    rw [hitems, hhistory, hasync]
    unfold activateSubscribed
    simp only
    by_cases hloop : 0 < w₁.items.size ∧ w₁.subscriptionMap.entries = []
    · -- the loop runs over every item
      left
      rw [if_pos hloop]
      have hrounds : Rounds r w₀ 0 es { w₁ with asyncReadActive := true } :=
        rounds_start hh hno (hmap.mp hloop.2) hmon
      obtain ⟨es', hrounds'⟩ := hrounds.loop ho₀ w.items.size
      unfold addMonitoredItems
      rw [hsize]
      refine ⟨es', _, hrounds'.pass.history, rfl, _, rfl, rfl,
        ⟨⟨hrounds'.pass.history, hrounds'.pass.lists, hrounds'.pass.flag, hrounds'.pass.active,
          hrounds'.pass.refused⟩, hrounds'.ahead, hrounds'.events⟩, fun hcalm => ?_⟩
      obtain ⟨hnot, hkeep⟩ := ensureSubscription_exact hr hcalm hh.history
      have hexact : Exact (r.Refuses w₀) w₀ 0 0 es { w₁ with asyncReadActive := true } := by
        refine ⟨rfl, fun i old item hi hi' => ?_, fun b hb => absurd hb (hnot b)⟩
        obtain ⟨item₀, hi₀, hact, hflag⟩ := hkeep i item hi'
        rw [hi, Option.some_inj] at hi₀
        subst hi₀
        simp [hact, hflag]
      obtain ⟨es'', hrounds'', hexact''⟩ := hexact.loop hrounds hcalm ho₀ w.items.size
      have heq : es'' = es' :=
        List.append_cancel_right (hrounds''.pass.history.symm.trans hrounds'.pass.history)
      subst heq
      exact ⟨hexact''.async, hexact''.items, hexact''.told⟩
    · -- no item is asked for
      right
      rw [if_neg hloop]
      obtain ⟨es', hes', hno'⟩ := activateItems_events { w₁ with asyncReadActive := true }
      refine ⟨?_, es' ++ es, ?_, fun e he => ?_⟩
      · rintro ⟨j, item, hj, -, hor⟩
        have hpos : 0 < w₁.items.size := by
          rw [hsize]
          exact Nat.lt_of_le_of_lt (Nat.zero_le j) (List.getElem?_eq_some_iff.mp hj).1
        exact hloop ⟨hpos, hmap.mpr (hor.imp_right And.left)⟩
      · rw [hes', List.append_assoc, ← hh.history]
      · rcases List.mem_append.mp he with he | he
        · exact hno' e he
        · exact hno e he

/-- The condition is enough, whatever callbacks run inside the requests. -/
theorem failsSafely_of_safeRefusals (ho : w.Occupied)
    (hsafe : w.isFunctional = true → SafeRefusals r w) : FailsSafely r w := by
  by_cases hfun : w.isFunctional = true
  · obtain ⟨hsub, htold⟩ := hsafe hfun
    refine ⟨fun _ => (activate_returns r _).mpr hsub, ?_⟩
    rcases activation_cases ho hfun hsub with
      ⟨es, n, hhistory, rfl, w', hitems, hasync, hrounds, -⟩ | ⟨-, es, hhistory, hno⟩
    · rw [hhistory, newEvents_append, hitems, hasync]
      intro hrefusal
      obtain ⟨j, hj, hrefuses⟩ := hrounds.events.mp hrefusal
      cases hstays : w'.asyncReadActive with
      | false => exact .inl rfl
      | true =>
        refine .inr fun item' hitem' hact => ?_
        obtain ⟨i, hi'⟩ := List.mem_iff_getElem?.mp hitem'
        obtain ⟨old, -, hi, -, hacc⟩ := exists_item_of_lists hrounds.pass.lists hi'
        obtain ⟨hnoflag, hor⟩ := htold ⟨j, hrefuses⟩ i old hi
        have hbefore : ∃ j < w.items.size, r.Refuses w j ∧ (old.active = true ∨ i ≤ j) := by
          rcases hor with hact | ⟨j', hle, hrefuses'⟩
          · exact ⟨j, hj, hrefuses, .inl hact⟩
          · obtain ⟨item, hj', -⟩ := id hrefuses'
            exact ⟨j', (List.getElem?_eq_some_iff.mp hj').1, hrefuses', .inr hle⟩
        have hall := (hrounds.pass.refused hstays i old hi hbefore).resolve_left fun hflag => by
          rw [hnoflag] at hflag
          cases hflag
        exact hall.mono (fun _ he => he) hacc
    · rw [hhistory, newEvents_append]
      rintro ⟨e, he, href⟩
      rw [hno e he] at href
      cases href
  · have hid : activateAsyncRead r w = w := if_neg hfun
    refine ⟨fun h => absurd h hfun, ?_⟩
    rw [hid]
    rintro ⟨e, he, -⟩
    simp [newEvents] at he

/-- Without callbacks inside the requests it is needed, where no accessor is in two lists. -/
theorem safeRefusals_of_failsSafely (ho : w.Occupied) (hcalm : r.Uninterrupted)
    (honce : ∀ (i j : Nat) item item', w.items.elems[i]? = some item →
      w.items.elems[j]? = some item' → ∀ a ∈ item.accessors, a ∈ item'.accessors → i = j)
    (hfun : w.isFunctional = true) (h : FailsSafely r w) : SafeRefusals r w := by
  have hsub := (activate_returns r _).mp (h.noEscape hfun)
  refine ⟨hsub, fun hrefused i old hi => ?_⟩
  rcases activation_cases ho hfun hsub with
    ⟨es, n, hhistory, rfl, w', hitems, hasync, hrounds, hexact⟩ | ⟨hnone, -⟩
  · have hexact := hexact hcalm
    have htold := h.told
    rw [hhistory, newEvents_append, hitems, hasync] at htold
    obtain ⟨j, hj⟩ := hrefused
    obtain ⟨itemj, hitemj, -⟩ := id hj
    have hall := (htold (hrounds.events.mpr
      ⟨j, (List.getElem?_eq_some_iff.mp hitemj).1, hj⟩)).resolve_left fun hoff => by
        rw [hexact.async] at hoff
        cases hoff
    obtain ⟨item, hitem, hacc⟩ := hrounds.pass.item hi
    have hlt : i < w.items.size := (List.getElem?_eq_some_iff.mp hi).1
    have hact : item.active = true := ((hexact.items i old item hi hitem).1).mpr (.inr hlt)
    -- one accessor of the item is enough to see by which refusal it was told
    obtain ⟨b, hb⟩ := List.exists_mem_of_ne_nil _ (ho.accessors old (List.mem_of_getElem? hi))
    obtain ⟨i', old', hi', hb', hnoflag, j', -, hrefuses, hor⟩ :=
      hexact.told b (hall item (List.mem_of_getElem? hitem) hact b (hacc ▸ hb))
    obtain rfl := honce i i' old old' hi hi' b hb hb'
    rw [hi, Option.some_inj] at hi'
    subst hi'
    exact ⟨hnoflag, hor.imp_right fun hle => ⟨j', hle, hrefuses⟩⟩
  · exact absurd hrefused hnone

end Activations

/-! ## Exceptions of other accessors -/

/-- The step does not terminate the process. -/
def Spared (w w' : World V) : Prop := w'.fault = some .terminate → w.fault = some .terminate

section Spared

variable (w : World V)

theorem fail_spared {f : Fault} (hf : f ≠ .terminate) : Spared w (w.fail f) :=
  fun h => (fail_fault w h).resolve_right hf

theorem handleException_spared (message : String) : Spared w (handleException message w) := by
  intro h
  rwa [handleException, pushAll_fault] at h

theorem clearActive_spared : Spared w (clearActive w) := by
  unfold clearActive
  simp only
  split
  · exact id
  · exact fail_spared w (by decide)

theorem deactivate_spared {removal : World V → World V} (hr : ∀ w, Spared w (removal w)) :
    Spared w (deactivate removal w) := by
  have hclear := clearActive_spared w
  unfold deactivate
  simp only
  split
  · split
    · exact hclear
    · exact fun h => hclear (hr { clearActive w with run := false, subscriptionActive := false } h)
  · exact hclear

theorem deactivateAllAndPushException_spared {removal : World V → World V}
    (hr : ∀ w, Spared w (removal w)) (message : String) :
    Spared w (deactivateAllAndPushException removal message w) :=
  fun h => handleException_spared w message (deactivate_spared _ hr h)

theorem runCallback_spared (c : Callback V) : Spared w (runCallback w c) := by
  have hall (message : String) (w : World V) :
      Spared w (deactivateAllAndPushException (·.fail .clientLockDeadlock) message w) :=
    deactivateAllAndPushException_spared w (fun w => fail_spared w (by decide)) message
  cases c with
  | state c s =>
    unfold runCallback stateCallback
    simp only
    split
    · exact hall _ { w with channelState := c, sessionState := s }
    · exact id
  | inactivity subId =>
    unfold runCallback inactivityCallback
    simp only
    split
    · exact hall _ w
    · exact id
  | deleteSubscription subId => exact id
  | dataChange monId value =>
    unfold runCallback responseHandler
    simp only
    split
    · exact id
    · split
      · exact fail_spared w (by decide)
      · split
        · intro h
          rwa [pushAll_fault] at h
        · exact id

theorem removeSubscription_spared (reply : Reply V UA_StatusCode) :
    Spared w (removeSubscription reply w) := by
  have hrun : ∀ (cs : List (Callback V)) (w : World V), Spared w (runCallbacks cs w) := by
    intro cs
    induction cs with
    | nil => exact fun _ => id
    | cons c cs ih => exact fun w h => runCallback_spared w c (ih _ h)
  exact hrun _ _

/-- Nothing escapes from `setException`: it is a function of the state, and does not terminate the
process. -/
theorem setException_noEscape (r : Replies V) : Spared w (setException r w) := by
  unfold setException
  simp only
  split
  · exact deactivateAllAndPushException_spared { w with hasActiveException := true }
      (fun w => removeSubscription_spared w _) _
  · exact id

end Spared

/-! ## Every run -/

/-- Where each accessor is subscribed once, no accessor is in two lists. -/
theorem lists_disjoint (hw : w.Fresh) {cs : List (Call V)}
    (h : Along Attendance.Allowed (attendances cs)) {i j : Nat} {item item' : MonitorItem}
    (hi : (Call.run w cs).items.elems[i]? = some item)
    (hj : (Call.run w cs).items.elems[j]? = some item') {a : Accessor} (ha : a ∈ item.accessors)
    (ha' : a ∈ item'.accessors) : i = j := by
  obtain ⟨hnames, -, hmembers, -, -⟩ := run_lists hw cs h
  have hjoined {i : Nat} {item : MonitorItem} (hi : (Call.run w cs).items.elems[i]? = some item)
      (ha : a ∈ item.accessors) : .join item.browseName a ∈ attendances cs := by
    have hlisting : item.listing ∈ (Call.run w cs).lists :=
      List.mem_map_of_mem (List.mem_of_getElem? hi)
    have hlisted : membersOf item.browseName (Call.run w cs).lists = item.accessors :=
      membersOf_of_mem hnames hlisting
    refine (mem_present.mp ?_).1
    rw [← hmembers, hlisted]
    exact ha
  have hkeys : (Call.run w cs).lists.map Prod.fst =
      (Call.run w cs).items.elems.map (·.browseName) := List.map_map ..
  exact index_inj (hkeys ▸ hnames) hi hj (joined_unique h (hjoined hi ha) (hjoined hj ha'))

/-- **Activations that are refused.** In every state of every run the condition is enough for an
activation to fail safely, whatever the library answers and calls back; without callbacks it is
needed, where accessors are subscribed once. Nothing escapes from `setException`. -/
theorem run_failsSafely (hw : w.Fresh) (cs : List (Call V)) (r : Replies V) :
    (((Call.run w cs).isFunctional = true → SafeRefusals r (Call.run w cs)) →
        FailsSafely r (Call.run w cs)) ∧
      (Along Attendance.Allowed (attendances cs) → r.Uninterrupted →
        FailsSafely r (Call.run w cs) → (Call.run w cs).isFunctional = true →
        SafeRefusals r (Call.run w cs)) ∧
      Spared (Call.run w cs) (setException r (Call.run w cs)) := by
  have ho := (run_replay hw cs).1
  refine ⟨failsSafely_of_safeRefusals ho, fun h hcalm hsafe hfun => ?_, setException_noEscape _ r⟩
  exact safeRefusals_of_failsSafely ho hcalm
    (fun i j item item' hi hj a ha ha' => lists_disjoint hw h hi hj ha ha') hfun hsafe

/-- The device is open, and one register has an accessor. -/
def openedWithOne : List (Call Nat) :=
  [.openDevice {} {} { connect := { result := .good, callbacks := [.state .open .activated] } },
    .constructAccessor {} "a" ⟨1, .string "a"⟩ 10]

/-- The server does not know the node. -/
def unknownNode : Replies Nat :=
  { createDataChange := fun _ => { result := ⟨⟨0x80340000, "BadNodeIdUnknown"⟩, 0⟩ } }

theorem run_failsSafely_unknownNode :
    FailsSafely unknownNode (Call.run {} openedWithOne) := by
  have hitems : (Call.run {} openedWithOne).items.elems = [newItem "a" ⟨1, .string "a"⟩ 10] := by
    decide
  refine (run_failsSafely World.fresh_default openedWithOne unknownNode).1 fun _ =>
    ⟨.inr rfl, fun _ i item hi => ?_⟩
  rw [hitems] at hi
  cases i with
  | zero =>
    obtain rfl : newItem "a" ⟨1, .string "a"⟩ 10 = item := by simpa using hi
    exact ⟨rfl, .inr ⟨0, le_rfl, _, by rw [hitems]; rfl, rfl, .inr ⟨by decide, rfl⟩⟩⟩
  | succ i => simp at hi

/-- The subscription is refused, and the exception leaves `activateAsyncRead`. -/
theorem not_failsSafely_refusedSubscription :
    ¬ ∀ cs : List (Call Nat), Call.Legal (fun _ _ => True) {} cs →
      ∀ r, FailsSafely r (Call.run {} cs) := by
  intro h
  have hsafe := h openedWithOne (by decide) refusedSubscription
  exact absurd (hsafe.noEscape (by decide)) (by decide)

end OpcUaBackend
