import OpcUaBackend.Manager.Registration

/-!
# Monitored items and the current subscription

The id and the flag `isMonitored` of an item mean something only in the subscription that the
item was registered in. They agree with the current subscription as long as every subscription
is created in a clean state and no item is removed whose mark was taken back before: a
subscription deleted by the server leaves the marks behind, and every removal of a
subscription leaves the ids behind, while the server numbers the monitored items of each
subscription anew.

## Main definitions

* `UpToDate`: what is marked as monitored is registered in the current subscription
* `Event.Owned`: a deletion names the monitored item of the item it is for

## Main results

* `registration_inj`: in one subscription an id belongs to one item
* `reach_bookkeeping`: both hold in every run that meets the condition
-/

namespace OpcUaBackend

open Foundation

variable {V : Type} {w : World V}

/-! ## Ids in one subscription -/

/-- In one subscription an id belongs to one item. -/
theorem registration_inj {h : List (Event V)} (hL : LibraryContract h) {name name' : String}
    {q q' : MonitoredItemCreateRequest × MonitoredItemCreateResult}
    (hq : registration h name = some q) (hq' : registration h name' = some q')
    (hid : q.2.monitoredItemId = q'.2.monitoredItemId) : name = name' := by
  induction h with
  | nil => simp [registration, currentEvents] at hq
  | cons e past ih =>
    cases hopen : e.opensSubscription with
    | true => simp [registration, currentEvents, since_cons_stop past hopen] at hq
    | false =>
      cases hreg : e.registers with
      | none =>
        have hquiet : ∀ e' ∈ [e], e'.Quiet := by simp [Event.Quiet, hopen, hreg]
        rw [← List.singleton_append, registration_quiet hquiet] at hq hq'
        exact ih hL.2 hq hq'
      | some r =>
        obtain ⟨rfl, hgood⟩ := Event.eq_of_registers hreg
        have hfresh := (hL.1 hgood).2.2
        rw [registration_cons_registers hreg] at hq hq'
        split at hq <;> split at hq'
        · rename_i hn hn'
          exact hn.symm.trans hn'
        · obtain rfl := Option.some_inj.mp hq
          exact absurd (hid ▸ mem_issuedIds_of_registration hq') hfresh
        · obtain rfl := Option.some_inj.mp hq'
          exact absurd (hid ▸ mem_issuedIds_of_registration hq) hfresh
        · exact ih hL.2 hq hq'

/-- The latest registration in the current subscription is the latest of all. -/
theorem latestRegistration_of_registration {h : List (Event V)} {name : String}
    {q : MonitoredItemCreateRequest × MonitoredItemCreateResult}
    (hq : registration h name = some q) : latestRegistration h name = some q := by
  obtain ⟨old, hold⟩ := since_initial Event.opensSubscription h
  rw [latestRegistration, ← hold, List.findSome?_append]
  simp only [registration, currentEvents] at hq
  rw [hq, Option.some_or]

/-! ## Agreement -/

/-- While a subscription is active, what is marked as monitored was registered last in the
current subscription, under the id it has. -/
def UpToDate (w : World V) : Prop :=
  w.subscriptionActive = true → ∀ item ∈ w.items.elems, item.isMonitored = true →
    ∃ q, latestRegistration w.history item.browseName = some q ∧
      q.1.subscriptionId = w.subscriptionID ∧ q.2.monitoredItemId = item.id

/-- A request to delete a monitored item names one that was created in the current subscription
for the item it is made for, and for no other item. -/
def Event.Owned (past : List (Event V)) : Event V → Prop
  | .deleteMonitoredItem subscriptionId monitoredItemId browseName _ =>
    currentSubscription past = some subscriptionId ∧
    (∃ q, registration past browseName = some q ∧ q.1.subscriptionId = subscriptionId ∧
      q.2.monitoredItemId = monitoredItemId) ∧
    ∀ name q, registration past name = some q → q.2.monitoredItemId = monitoredItemId →
      name = browseName
  | _ => True

theorem Event.owned_of_not_deletes {e : Event V} (he : e.deletes = false)
    (past : List (Event V)) : e.Owned past := by
  cases e <;> simp_all [Event.deletes, Event.Owned]

theorem Registered.registration_current (h : Registered w) {item : MonitorItem}
    (hitem : item ∈ w.items.elems) (hm : item.isMonitored = true) (hid : w.subscriptionID ≠ 0) :
    ∃ q, registration w.history item.browseName = some q ∧
      q.1.subscriptionId = w.subscriptionID ∧ q.2.monitoredItemId = item.id := by
  obtain ⟨q, hq, -, hqid, hsub⟩ := h.registered item hitem hm
  rw [h.subscriptionID hid, Option.some_inj] at hsub
  exact ⟨q, hq, hsub.symm, hqid⟩

theorem Registered.upToDate (h : Registered w) : UpToDate w := by
  intro hactive item hitem hm
  have hid : w.subscriptionID ≠ 0 :=
    (h.active hactive).resolve_right fun hu => by simp [hu item hitem] at hm
  obtain ⟨q, hq, hsub, hqid⟩ := h.registration_current hitem hm hid
  exact ⟨q, latestRegistration_of_registration hq, hsub, hqid⟩

/-! ## Removals -/

/-- A call that removes an item with an id, on an open connection, finds it marked as monitored
and the current subscription not deleted. -/
def Call.RemovesMonitored (w : World V) : Call V → Prop
  | .unsubscribe _ browseName _ =>
    ∀ found ∈ w.find? browseName, found.2.accessors.length ≤ 1 → found.2.id ≠ 0 →
      w.isConnected = true → found.2.isMonitored = true ∧ w.subscriptionID ≠ 0
  | _ => True

instance (w : World V) (c : Call V) : Decidable (c.RemovesMonitored w) := by
  apply @Call.casesOn V (fun c => Decidable (c.RemovesMonitored w)) c <;> intros <;>
    dsimp only [Call.RemovesMonitored] <;> infer_instance

theorem unsubscribe_owned (r : Replies V) (browseName : String) (a : Accessor)
    (h : Registered w) (hL : LibraryContract w.history) (ho : Along Event.Owned w.history)
    (hm : (Call.unsubscribe r browseName a).RemovesMonitored w) :
    Along Event.Owned (unsubscribe r browseName a w).history := by
  rcases unsubscribe_history w r browseName a with hg | ⟨found, hfind, hlast, hid, hconn, hg⟩
  · exact ho.extend hg fun past e he => Event.owned_of_not_deletes he past
  · obtain ⟨hmon, hsub⟩ := hm found hfind hlast hid hconn
    obtain ⟨hitem, rfl⟩ := World.find?_eq_some hfind
    obtain ⟨q, hq, hqsub, hqid⟩ := h.registration_current (List.mem_of_getElem? hitem) hmon hsub
    have howned : Event.Owned w.history (.deleteMonitoredItem w.subscriptionID found.2.id
        found.2.browseName r.deleteMonitoredItem.result) :=
      ⟨h.subscriptionID hsub, ⟨q, hq, hqsub, hqid⟩, fun name q' hq' hqid' =>
        registration_inj hL hq' hq (hqid'.trans hqid.symm)⟩
    exact (along_cons.mpr ⟨howned, ho⟩).extend hg fun past e he =>
      Event.owned_of_not_deletes he past

/-! ## Every run -/

/-- The condition under which the books agree: subscriptions are created in clean states, and
items are removed while they are marked as monitored. -/
def Call.KeepsBooks (w : World V) (c : Call V) : Prop := c.Clean w ∧ c.RemovesMonitored w

instance (w : World V) (c : Call V) : Decidable (c.KeepsBooks w) := by
  unfold Call.KeepsBooks; infer_instance

/-- **Bookkeeping.** In every run that creates subscriptions in clean states and removes items
while they are marked as monitored, the marks agree with the current subscription, and every
deletion names the monitored item of the item that is removed. -/
theorem reach_bookkeeping (h : (calls V).Reach Call.KeepsBooks w) :
    UpToDate w ∧ Along Event.Owned w.history := by
  have hinv : Bookkept False w ∧ LibraryContract w.history ∧ Along Event.Owned w.history := by
    refine h.invariant (I := fun w => Bookkept False w ∧ LibraryContract w.history ∧
      Along Event.Owned w.history) ?_ ?_
    · intro w hw
      refine ⟨.fresh hw, ?_⟩
      rw [hw.history]
      exact ⟨trivial, trivial⟩
    · rintro w c w' ⟨hw, hL, ho⟩ ⟨hclean, hmon⟩ ⟨-, rfl, hL'⟩
      refine ⟨hw.exec c hclean False.elim hL', hL', ?_⟩
      rcases Call.exec_history w c with hg | ⟨r, name, a, rfl⟩
      · exact ho.extend hg fun past e he => Event.owned_of_not_deletes he past
      · exact unsubscribe_owned r name a hw.1 hL ho hmon
  exact ⟨hinv.1.1.upToDate, hinv.2.2⟩

/-- Two registers, one of them removed while it is monitored. -/
def removeMonitored : List (Call Nat) :=
  [.callbacks [.state .open .activated], .subscribe {} "a" ⟨1, .string "a"⟩ 10,
    .subscribe {} "b" ⟨1, .string "b"⟩ 11, .activate {}, .unsubscribe {} "a" 10]

theorem reach_bookkeeping_removeMonitored :
    UpToDate (Call.run {} removeMonitored) ∧
      Along Event.Owned (Call.run {} removeMonitored).history :=
  reach_bookkeeping (reach_run removeMonitored (.init World.fresh_default) (by decide))

/-- The server deletes the subscription of register `a`; register `b` is then registered in a
second subscription, under the id that `a` had in the first one. -/
def deletedByServer : List (Call Nat) :=
  let second : Replies Nat :=
    { subscriptionsCreate := { result := ⟨.good, 2, 500⟩ }
      createDataChange := fun _ => { result := ⟨.good, 1⟩ } }
  [.callbacks [.state .open .activated], .subscribe {} "a" ⟨1, .string "a"⟩ 10, .activate {},
    .callbacks [.deleteSubscription 1], .subscribe second "b" ⟨1, .string "b"⟩ 11]

/-- After a deletion by the server the mark of `a` is stale, and its removal asks the server to
delete the monitored item of `b`. -/
theorem not_bookkeeping_deletedByServer :
    (¬ ∀ w : World Nat, (calls Nat).Reachable w → UpToDate w) ∧
      ¬ ∀ w : World Nat, (calls Nat).Reachable w → Along Event.Owned w.history := by
  constructor
  · intro h
    have hu := h _ (reach_run deletedByServer (.init World.fresh_default) (by decide))
    obtain ⟨q, hq, hsub, -⟩ := hu (by decide)
      { node := ⟨1, .string "a"⟩, accessors := [10], id := 1, active := true, isMonitored := true,
        browseName := "a" } (by decide) rfl
    have hold : (latestRegistration (Call.run {} deletedByServer).history "a").map
        (·.1.subscriptionId) = some 1 := by decide
    have hnow : (Call.run {} deletedByServer).subscriptionID = 2 := by decide
    rw [hq, Option.map_some, hsub, hnow] at hold
    simp at hold
  · intro h
    have ho := h _ (reach_run (deletedByServer ++ [.unsubscribe {} "a" 10])
      (.init World.fresh_default) (by decide))
    have hhist : (Call.run {} (deletedByServer ++ [.unsubscribe {} "a" 10])).history
      = .deleteMonitoredItem 2 1 "a" .good :: (Call.run {} deletedByServer).history := by rfl
    rw [hhist] at ho
    obtain ⟨-, ⟨q, hq, -⟩, -⟩ := ho.1
    have hnone : registration (Call.run {} deletedByServer).history "a" = none := by decide
    rw [hnone] at hq
    cases hq

end OpcUaBackend
