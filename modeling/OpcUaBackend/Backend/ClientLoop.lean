import OpcUaBackend.Manager.Activation

/-!
# The client loop after an activation

`activateAsyncRead` starts a client thread when there is no thread object; it does not ask
whether the thread of an existing object is still in its loop. So it leaves a live loop exactly
when no removal of the subscription is requested and the thread object is gone, or its thread
is in the loop and is not to leave it. A live loop stays live until something stops it.

## Main definitions

* `World.Live`: a thread is in the loop and stays there
* `World.Startable`: the condition on the state in which `activateAsyncRead` is called
* `Call.Undisturbed`: the calls that leave a live loop alone

## Main results

* `World.Live.exec`: undisturbed calls keep the loop live
* `activateAsyncRead_live_iff`: when `activateAsyncRead` leaves a live loop
-/

namespace OpcUaBackend

open Foundation

variable {V : Type} {w w' : World V}

/-! ## Live loops -/

/-- The thread is in the loop of `runClient`. -/
def ClientThread.InLoop (t : ClientThread) : Prop := t = .loopHead ∨ t = .iterating

instance (t : ClientThread) : Decidable t.InLoop := by
  unfold ClientThread.InLoop; infer_instance

/-- A client thread is in the loop, has no reason to leave it, and serves a subscription. -/
structure Lifecycle.Live (l : Lifecycle) : Prop where
  opcuaThread : ∃ t ∈ l.opcuaThread, t.InLoop
  run : l.run = true
  subscriptionActive : l.subscriptionActive = true
  kept : l.subscriptionNeedsToBeRemoved = false

/-- The condition on the state in which `activateAsyncRead` is called: no removal is requested,
and there is no thread object, or its thread is in the loop and is not to leave it. -/
def Lifecycle.Startable (l : Lifecycle) : Prop :=
  l.subscriptionNeedsToBeRemoved = false ∧
    ∀ t ∈ l.opcuaThread, t.InLoop ∧ l.run = true

instance (l : Lifecycle) : Decidable l.Startable := by
  unfold Lifecycle.Startable; infer_instance

theorem Lifecycle.Live.startable {l : Lifecycle} (h : l.Live) : l.Startable := by
  obtain ⟨⟨t, ht, hloop⟩, hrun, -, hkept⟩ := h
  refine ⟨hkept, fun t' ht' => ?_⟩
  obtain rfl : t = t' := Option.some_inj.mp (ht.symm.trans ht')
  exact ⟨hloop, hrun⟩

/-! ## What activation does to the flags -/

theorem handleException_lifecycle (message : String) (w : World V) :
    (handleException message w).toLifecycle = w.toLifecycle :=
  (pushAll_calm (.exception message) _ { w with items := w.items.map MonitorItem.raise }).lifecycle

theorem activateIfAsync_lifecycle (i : Nat) (w : World V) :
    (activateIfAsync i w).toLifecycle = w.toLifecycle := by
  unfold activateIfAsync activateItem
  split
  · split <;> rfl
  · rfl

theorem monitoringAnswered_lifecycle (i : Nat) (browseName : String)
    (result : MonitoredItemCreateResult) (w : World V) :
    (monitoringAnswered i browseName result w).toLifecycle = w.toLifecycle := by
  unfold monitoringAnswered
  split
  · rfl
  · exact handleException_lifecycle _ w

theorem addMonitoredItem_lifecycle {reply : Reply V MonitoredItemCreateResult}
    (hcalm : ∀ c ∈ reply.callbacks, c.isCalm = true) (i : Nat) (w : World V) :
    (addMonitoredItem reply i w).toLifecycle = w.toLifecycle := by
  have hact := activateIfAsync_lifecycle i w
  rcases addMonitoredItem_cases w reply i with ⟨he, -⟩ | ⟨he, -⟩ | ⟨item, first, -, -, -, he⟩
  · exact he ▸ hact
  · exact he ▸ hact
  · rw [he, monitoringAnswered_lifecycle, (libraryCall_calm hcalm _ _).lifecycle, hact]

theorem addMonitoredItems_lifecycle {replies : Nat → Reply V MonitoredItemCreateResult}
    (hcalm : ∀ i, ∀ c ∈ (replies i).callbacks, c.isCalm = true) (w : World V) :
    (addMonitoredItems replies w).toLifecycle = w.toLifecycle := by
  unfold addMonitoredItems
  generalize List.range w.items.size = is
  induction is generalizing w with
  | nil => rfl
  | cons i is ih => exact (ih _).trans (addMonitoredItem_lifecycle (hcalm i) i w)

/-- The flags that decide whether the loop goes on, and the thread. -/
def Lifecycle.loop (l : Lifecycle) : Bool × Bool × Option ClientThread :=
  (l.run, l.subscriptionNeedsToBeRemoved, l.opcuaThread)

/-- The callback reports a loss of the connection or inactivity. -/
def Callback.isLoss : Callback V → Bool
  | .state channelState sessionState => !(channelState == .open && sessionState == .activated)
  | .inactivity _ => true
  | _ => false

/-- Without a loss the loop is left alone, even when the subscription is deleted. -/
theorem runCallbacks_loop {cs : List (Callback V)} (hcs : ∀ c ∈ cs, c.isLoss = false)
    (w : World V) : (runCallbacks cs w).loop = w.loop := by
  induction cs generalizing w with
  | nil => rfl
  | cons c cs ih =>
    refine (ih (fun c' hc' => hcs c' (List.mem_cons_of_mem _ hc')) _).trans ?_
    have hc := hcs c (List.mem_cons_self ..)
    cases c with
    | state channelState sessionState =>
      obtain ⟨rfl, rfl⟩ : channelState = .open ∧ sessionState = .activated := by
        simpa [Callback.isLoss] using hc
      rw [runCallback_open]
    | inactivity subId => cases hc
    | deleteSubscription subId => rfl
    | dataChange monId value =>
      exact congrArg Lifecycle.loop (responseHandler_calm monId value w).lifecycle

/-- The library creates the subscription, and reports no loss of the connection and no
inactivity inside the calls of an activation, nor a deletion once the subscription is requested.
-/
structure Replies.Steady (r : Replies V) : Prop where
  subscriptionsDelete : ∀ c ∈ r.subscriptionsDelete.callbacks, c.isLoss = false
  created : r.subscriptionsCreate.result.serviceResult.isGood = true
  subscriptionsCreate : ∀ c ∈ r.subscriptionsCreate.callbacks, c.isCalm = true
  createDataChange : ∀ i, ∀ c ∈ (r.createDataChange i).callbacks, c.isCalm = true

theorem cleanUpSubscription_loop {reply : Reply V UA_StatusCode}
    (hreply : ∀ c ∈ reply.callbacks, c.isLoss = false) (w : World V) :
    (cleanUpSubscription reply w).loop = w.loop := by
  unfold cleanUpSubscription
  split
  · exact runCallbacks_loop hreply (w.record (.subscriptionsDelete w.subscriptionID reply.result))
  · rfl

theorem ensureSubscription_loop {r : Replies V} (hr : r.Steady) (w : World V) :
    ∃ w', ensureSubscription r w = .returned w' ∧ w'.loop = w.loop ∧
      w'.subscriptionActive = true := by
  unfold ensureSubscription
  split
  · rename_i hactive
    exact ⟨w, rfl, rfl, hactive⟩
  · have hclean := cleanUpSubscription_loop hr.subscriptionsDelete w
    unfold createSubscription requestSubscription
    generalize cleanUpSubscription r.subscriptionsDelete w = w₁ at hclean ⊢
    have hcall := (libraryCall_calm hr.subscriptionsCreate (.subscriptionsCreate
      w₁.publishingInterval r.subscriptionsCreate.result) w₁).lifecycle
    simp only
    rw [if_pos hr.created]
    exact ⟨_, rfl, (congrArg Lifecycle.loop hcall).trans hclean, rfl⟩

theorem activateSubscribed_lifecycle {r : Replies V} (hr : r.Steady) (w : World V) :
    (activateSubscribed r w).toLifecycle = w.toLifecycle := by
  unfold activateSubscribed
  simp only
  split
  · exact addMonitoredItems_lifecycle hr.createDataChange { w with asyncReadActive := true }
  · rfl

/-- **Activation** leaves the loop alone and the subscription active. -/
theorem activate_loop {r : Replies V} (hr : r.Steady) (w : World V) :
    ∃ w', activate r w = .returned w' ∧ w'.loop = w.loop ∧ w'.subscriptionActive = true := by
  obtain ⟨w₁, hensure, hloop, hactive⟩ := ensureSubscription_loop hr w
  have hsub := activateSubscribed_lifecycle hr w₁
  refine ⟨activateSubscribed r w₁, ?_, (congrArg Lifecycle.loop hsub).trans hloop, ?_⟩
  · rw [activate, hensure]
    rfl
  · exact (congrArg Lifecycle.subscriptionActive hsub).trans hactive

/-- The loop is live after `activateAsyncRead` exactly when the state was startable. -/
theorem activateAsyncRead_live {r : Replies V} (hr : r.Steady) (hw : w.isFunctional = true) :
    (activateAsyncRead r w).Live ↔ w.Startable := by
  obtain ⟨w₁, hact, hloop, hactive⟩ := activate_loop hr { w with subscriptionManager := true }
  obtain ⟨hrun, hkept, hthread⟩ : w₁.run = w.run ∧
      w₁.subscriptionNeedsToBeRemoved = w.subscriptionNeedsToBeRemoved ∧
        w₁.opcuaThread = w.opcuaThread := by
    simpa [Lifecycle.loop] using hloop
  unfold activateAsyncRead
  rw [if_pos hw, hact]
  simp only
  cases ht : w.opcuaThread with
  | none =>
    -- no thread object: a new thread is started
    have hnone : w₁.opcuaThread = none := hthread.trans ht
    rw [if_pos (by simp [hnone]), start, if_pos hactive, if_neg (by simp [hnone])]
    constructor
    · rintro ⟨-, -, -, hk⟩
      exact ⟨hkept ▸ hk, by simp [ht]⟩
    · rintro ⟨hk, -⟩
      exact ⟨⟨.loopHead, rfl, .inl rfl⟩, rfl, hactive, hkept.trans hk⟩
  | some t =>
    have hsome : w₁.opcuaThread = some t := hthread.trans ht
    rw [if_neg (by simp [hsome])]
    constructor
    · intro hlive
      have hstart := hlive.startable
      rw [Lifecycle.Startable, hkept, hthread, hrun] at hstart
      exact hstart
    · rintro ⟨hk, hloop⟩
      obtain ⟨hin, hr⟩ := hloop t ht
      exact ⟨⟨t, hsome, hin⟩, hrun.trans hr, hactive, hkept.trans hk⟩

/-! ## A live loop goes on -/

/-- The call leaves a live loop alone: an iteration that is answered GOOD, reads, writes, pushes
and reports, further subscriptions and activations, all without a loss or a deletion. -/
def Call.Undisturbed : Call V → Prop
  | .clientStep iterate _ =>
    iterate.result.isGood = true ∧ ∀ c ∈ iterate.callbacks, c.isCalm = true
  | .callbacks cs => ∀ c ∈ cs, c.isCalm = true
  | .subscribe r _ _ _ => ∀ i, ∀ c ∈ (r.createDataChange i).callbacks, c.isCalm = true
  | .activateAsyncRead r => r.Steady
  | .setExternalError _ _ => True
  | .popNotification _ => True
  | .ownTransfer _ _ => True
  | _ => False

theorem Lifecycle.Live.clientStep (h : w.Live) {iterate : Reply V UA_StatusCode}
    (removal : Reply V UA_StatusCode) (hgood : iterate.result.isGood = true)
    (hcalm : ∀ c ∈ iterate.callbacks, c.isCalm = true) :
    (clientStep iterate removal w).Live := by
  have hstep := (runCallbacks_calm hcalm w).lifecycle
  obtain ⟨⟨t, ht, hloop⟩, hrun, hactive, hkept⟩ := h
  unfold OpcUaBackend.clientStep
  rw [Option.mem_def.mp ht]
  rcases hloop with rfl | rfl
  · exact ⟨⟨.iterating, by simp [hrun], .inr rfl⟩, hrun, hactive, hkept⟩
  · have hrun' := (congrArg Lifecycle.run hstep).trans hrun
    have hactive' := (congrArg Lifecycle.subscriptionActive hstep).trans hactive
    have hkept' := (congrArg Lifecycle.subscriptionNeedsToBeRemoved hstep).trans hkept
    simp only
    rw [if_neg (by simp [hkept']), if_pos hgood]
    exact ⟨⟨.loopHead, rfl, .inl rfl⟩, hrun', hactive', hkept'⟩

theorem pushInitialValue_lifecycle (front : Option (DataValue V)) (tmp a : Accessor)
    (w : World V) : (pushInitialValue front tmp a w).world.toLifecycle = w.toLifecycle := by
  have hpush : ∀ data : DataValue V, (if data.hasValue then
      Result.returned (w.push (.data data) a) else .returned w).world.toLifecycle
        = w.toLifecycle := by
    intro data
    split <;> rfl
  unfold pushInitialValue
  simp only
  split
  · exact hpush _
  · exact hpush _
  · split
    · rfl
    · exact hpush _

theorem ensureSubscription_active (r : Replies V) (h : w.subscriptionActive = true) :
    ensureSubscription r w = .returned w := if_pos h

/-- With an active subscription, a further accessor changes no flag. -/
theorem subscribe_lifecycle {r : Replies V} (browseName : String) (node : UA_NodeId)
    (a : Accessor) (hactive : w.subscriptionActive = true)
    (hcalm : ∀ i, ∀ c ∈ (r.createDataChange i).callbacks, c.isCalm = true) :
    (subscribe r browseName node a w).world.toLifecycle = w.toLifecycle := by
  unfold subscribe
  simp only
  split
  · split
    · rw [ensureSubscription_active r (by exact hactive)]
      exact addMonitoredItems_lifecycle hcalm _
    · rfl
  · split
    · rfl
    · split
      · exact pushInitialValue_lifecycle _ _ _ _
      · rfl

theorem isFunctional_or_idle (w : World V) (r : Replies V) :
    w.isFunctional = true ∨ activateAsyncRead r w = w := by
  by_cases hw : w.isFunctional = true
  · exact .inl hw
  · exact .inr (if_neg hw)

/-- **A live loop** is kept by every undisturbed call. -/
theorem Lifecycle.Live.exec (h : w.Live) {c : Call V} (hc : c.Undisturbed) :
    (c.exec w).world.Live := by
  cases c with
  | clientStep iterate removal => exact h.clientStep removal hc.1 hc.2
  | callbacks cs =>
    show (runCallbacks cs w).Live
    rw [(runCallbacks_calm hc w).lifecycle]
    exact h
  | subscribe r browseName node a =>
    have hsub := subscribe_lifecycle browseName node a h.subscriptionActive hc
    exact hsub ▸ h
  | activateAsyncRead r =>
    rcases isFunctional_or_idle w r with hw | hidle
    · exact (activateAsyncRead_live hc hw).mpr h.startable
    · show (activateAsyncRead r w).Live
      rw [hidle]
      exact h
  | setExternalError browseName reporter =>
    have hset : (setExternalError browseName reporter w).toLifecycle = w.toLifecycle := by
      unfold setExternalError
      split <;> rfl
    exact hset ▸ h
  | popNotification a => exact h
  | ownTransfer a data => exact h
  | _ => exact hc.elim

theorem Lifecycle.Live.steps {cs : List (Call V)} (h : w.Live)
    (hs : (calls V).Steps (fun _ c => c.Undisturbed) w cs w') : w'.Live := by
  induction hs with
  | nil => exact h
  | cons hc hstep _ ih =>
    obtain ⟨-, rfl, -⟩ := hstep
    exact ih (h.exec hc)

/-! ## Activation leaves a live loop -/

/-- **The client loop.** After `activateAsyncRead` on a functional device, whose calls create the
subscription and report no loss, the loop is live in every state of every undisturbed run
exactly when the state before was startable. -/
theorem activateAsyncRead_live_iff {r : Replies V} (hr : r.Steady) (hw : w.isFunctional = true) :
    (∀ cs w', (calls V).Steps (fun _ c => c.Undisturbed) (activateAsyncRead r w) cs w' →
      w'.Live) ↔ w.Startable := by
  rw [← activateAsyncRead_live hr hw]
  constructor
  · exact fun hall => hall [] _ (.nil _)
  · exact fun hlive cs w' hs => hlive.steps hs

theorem Replies.steady_default : Replies.Steady ({} : Replies V) :=
  ⟨by simp, rfl, by simp, by simp⟩

/-- The device is opened with a register to be read asynchronously. -/
def opened : List (Call Nat) :=
  [.constructAccessor {} "a" ⟨1, .string "a"⟩ 10, .openDevice {} {} connecting]

/-- The client thread goes on, and its library calls are answered GOOD. -/
def iteration : Call Nat := .clientStep { result := .good } { result := .good }

theorem activateAsyncRead_live_opened :
    (Call.run (activateAsyncRead {} (Call.run {} opened)) [iteration, iteration]).Live := by
  have hlive := (activateAsyncRead_live_iff (w := Call.run {} opened) Replies.steady_default
    (by decide)).mpr (by decide)
  have hcalm : iteration.Undisturbed := ⟨rfl, by simp⟩
  refine hlive [iteration, iteration] _ (Call.Legal.steps ?_)
  exact ⟨by decide, hcalm, by decide, by decide, hcalm, by decide, trivial⟩

/-- An exception is set without a loss of the connection, the client thread ends, and the device
is opened again. -/
def excepted : List (Call Nat) :=
  opened ++ [.activateAsyncRead {}, .setException {}] ++ List.replicate 4 iteration ++
    [.openDevice {} {} connecting]

/-- The thread object of the ended thread is still there, and no thread is started. -/
theorem not_live_excepted :
    ¬ ∀ (w : World Nat) (r : Replies Nat), (calls Nat).Reachable w → w.isFunctional = true →
      r.Steady → (activateAsyncRead r w).Live := by
  intro h
  have hreach : (calls Nat).Reachable (Call.run {} excepted) :=
    reach_run excepted (.init World.fresh_default) (by decide)
  have hlive := h _ {} hreach (by decide) Replies.steady_default
  have hstart := (activateAsyncRead_live Replies.steady_default (by decide)).mp hlive
  exact absurd hstart (by decide)

end OpcUaBackend
