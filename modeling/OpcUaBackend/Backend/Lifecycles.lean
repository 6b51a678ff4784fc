import OpcUaBackend.Backend.ClientLoop
import OpcUaBackend.Manager.Interleaving

/-!
# The functions of the manager as steps of the two threads

A function of the manager that is not interrupted changes the flags as the accesses of the
application do in a row, and a step of the client thread as the step of the other machine does.
The callbacks inside a call count as the signals they give.

## Main definitions

* `Shared.At`: the flags are those of a world, and the application is at a place
* `Runs`: the change of a world is a run of the two threads, between two places

## Main results

* `deactivate_runs`, `createSubscription_runs`, `start_runs`, `stopClientThread_runs`,
  `unsubscribeItem_runs`, `clientStep_runs`: every function that changes the flags
-/

namespace OpcUaBackend

open Foundation

variable {V : Type} {w w' w'' : World V} {app app' app'' : Application}

/-- The flags are those of the world, and the application is at the place. -/
structure Shared.At (s : Shared) (w : World V) (app : Application) : Prop where
  lifecycle : s.toLifecycle = w.toLifecycle
  app : s.app = app

/-- A run of the two threads leads from `w` and `app` to `w'` and `app'`. -/
def Runs (w : World V) (app : Application) (w' : World V) (app' : Application) : Prop :=
  ∀ s : Shared, s.At w app →
    ∃ as s', lifecycles.Steps (fun _ _ => True) s as s' ∧ s'.At w' app'

namespace Runs

protected theorem refl (w : World V) (app : Application) : Runs w app w app :=
  fun s hs => ⟨[], s, .nil s, hs⟩

protected theorem trans (h : Runs w app w' app') (h' : Runs w' app' w'' app'') :
    Runs w app w'' app'' := by
  intro s hs
  obtain ⟨as, s', hrun, hs'⟩ := h s hs
  obtain ⟨as', s'', hrun', hs''⟩ := h' s' hs'
  exact ⟨as ++ as', s'', hrun.append hrun', hs''⟩

/-- The same, with the place in between. -/
theorem via (v : World V) (q : Application) (h : Runs w app v q) (h' : Runs v q w'' app'') :
    Runs w app w'' app'' :=
  h.trans h'

/-- One step of the two threads. -/
theorem step (a : Action) (hd : a.Documented)
    (ha : ∀ s : Shared, s.At w app → ∃ s', s.exec a = some s' ∧ s'.At w' app') :
    Runs w app w' app' := by
  intro s hs
  obtain ⟨s', ha, hs'⟩ := ha s hs
  exact ⟨[a], s', .cons trivial ⟨hd, ha⟩ (.nil _), hs'⟩

/-- An access of the application. -/
theorem access (a : Action) (hd : a.Documented)
    (ha : ∀ history, ∃ history', Shared.exec ⟨w.toLifecycle, app, history⟩ a
      = some ⟨w'.toLifecycle, app', history'⟩) : Runs w app w' app' := by
  refine step a hd ?_
  rintro ⟨l, app₀, history⟩ ⟨rfl, rfl⟩
  obtain ⟨history', ha⟩ := ha history
  exact ⟨_, ha, rfl, rfl⟩

/-- Only the flags count. -/
theorem congr {w₁ : World V} (h : Runs w app w₁ app')
    (heq : w'.toLifecycle = w₁.toLifecycle) : Runs w app w' app' := by
  intro s hs
  obtain ⟨as, s', hrun, hs'⟩ := h s hs
  exact ⟨as, s', hrun, hs'.lifecycle.trans heq.symm, hs'.app⟩

end Runs

/-! ## Callbacks as signals -/

theorem clearActive_lifecycle (w : World V) : (clearActive w).toLifecycle = w.toLifecycle := by
  unfold clearActive
  simp only
  split <;> rfl

theorem Shared.deactivated_lifecycle (s : Shared) :
    s.deactivated.toLifecycle = { s.toLifecycle with
      run := false
      subscriptionActive := false
      subscriptionNeedsToBeRemoved := s.subscriptionNeedsToBeRemoved ||
        (s.subscriptionActive && s.opcuaThread.isSome) } := by
  unfold deactivated record
  simp only
  cases hactive : s.subscriptionActive <;> cases hthread : s.opcuaThread <;> simp_all

/-- A callback that reports a loss deactivates as the client thread does. -/
theorem deactivateAllAndPushException_lifecycle (f : Fault) (message : String) (w : World V) :
    (deactivateAllAndPushException (·.fail f) message w).toLifecycle = { w.toLifecycle with
      run := false
      subscriptionActive := false
      subscriptionNeedsToBeRemoved := w.subscriptionNeedsToBeRemoved ||
        (w.subscriptionActive && w.opcuaThread.isSome) } := by
  have hclear := (clearActive_lifecycle (handleException message w)).trans
    (handleException_lifecycle message w)
  unfold deactivateAllAndPushException deactivate
  generalize clearActive (handleException message w) = w₁ at hclear ⊢
  simp only [← hclear]
  cases hactive : w₁.subscriptionActive <;> cases hthread : w₁.opcuaThread <;>
    simp_all [World.fail]

theorem runCallback_signals (c : Callback V) (w : World V) : ∃ σs, ∀ s : Shared,
    s.toLifecycle = w.toLifecycle → (s.signals σs).toLifecycle = (runCallback w c).toLifecycle := by
  have hlost : ∀ (message : String) (w₁ : World V), w₁.toLifecycle = w.toLifecycle →
      w.run = true → ∀ s : Shared, s.toLifecycle = w.toLifecycle → (s.signals [.lost]).toLifecycle
        = (deactivateAllAndPushException (·.fail .clientLockDeadlock) message w₁).toLifecycle := by
    intro message w₁ hw₁ hrun s hs
    have hrun' : s.run = true := (congrArg Lifecycle.run hs).trans hrun
    have hsignal : s.signals [.lost] = s.deactivated := if_pos hrun'
    rw [hsignal, s.deactivated_lifecycle, deactivateAllAndPushException_lifecycle, hw₁, hs]
  cases c with
  | state channelState sessionState =>
    simp only [runCallback, stateCallback]
    split
    · rename_i hcond
      simp only [Bool.and_eq_true] at hcond
      exact ⟨[.lost], hlost _ _ rfl hcond.2⟩
    · exact ⟨[], fun s hs => hs⟩
  | inactivity subId =>
    simp only [runCallback, inactivityCallback]
    split
    · rename_i hcond
      simp only [Bool.and_eq_true] at hcond
      exact ⟨[.lost], hlost _ w rfl hcond.1.2⟩
    · exact ⟨[], fun s hs => hs⟩
  | deleteSubscription subId =>
    refine ⟨[.deleted], fun s hs => ?_⟩
    show { s.toLifecycle with subscriptionActive := false, subscriptionID := 0 } = _
    rw [hs]
    rfl
  | dataChange monId value =>
    exact ⟨[], fun s hs => hs.trans (responseHandler_calm monId value w).lifecycle.symm⟩

theorem runCallbacks_signals (cs : List (Callback V)) (w : World V) : ∃ σs, ∀ s : Shared,
    s.toLifecycle = w.toLifecycle →
      (s.signals σs).toLifecycle = (runCallbacks cs w).toLifecycle := by
  induction cs generalizing w with
  | nil => exact ⟨[], fun s hs => hs⟩
  | cons c cs ih =>
    obtain ⟨σs, hσs⟩ := runCallback_signals c w
    obtain ⟨σs', hσs'⟩ := ih (runCallback w c)
    refine ⟨σs ++ σs', fun s hs => ?_⟩
    have happend : s.signals (σs ++ σs') = (s.signals σs).signals σs' := List.foldl_append
    rw [happend]
    exact hσs' _ (hσs s hs)

/-- The signals of a call of the library. -/
theorem libraryCall_signals (e : Event V) (cs : List (Callback V)) (w : World V) :
    ∃ σs, ∀ s : Shared, s.toLifecycle = w.toLifecycle →
      (s.signals σs).toLifecycle = (libraryCall e cs w).toLifecycle :=
  runCallbacks_signals cs (w.record e)

/-! ## The functions of the application -/

theorem removeSubscription_runs (reply : Reply V UA_StatusCode) (w : World V) (remover : Remover) :
    Runs w (.delete remover) (removeSubscription reply w) remover.next := by
  obtain ⟨σs, hσs⟩ := libraryCall_signals (.subscriptionsDelete w.subscriptionID reply.result)
    reply.callbacks w
  refine .via (libraryCall (.subscriptionsDelete w.subscriptionID reply.result) reply.callbacks w)
    (.clearID remover) ?_ ?_
  · refine .step (.requestDeletion σs) trivial ?_
    rintro ⟨l, app, history⟩ ⟨rfl, rfl⟩
    exact ⟨_, rfl, hσs _ rfl, rfl⟩
  · exact .access .proceed trivial fun history => ⟨history, rfl⟩

/-- `deactivate`, called by the application. -/
theorem deactivate_runs (reply : Reply V UA_StatusCode) (w : World V) :
    Runs w .idle (deactivate (removeSubscription reply) w) .idle := by
  have hclear := clearActive_lifecycle w
  unfold deactivate
  generalize clearActive w = w₁ at hclear ⊢
  simp only
  have hentered : Runs w .idle { w₁ with run := false } .testActive :=
    .access .deactivate trivial fun history => ⟨history, by rw [← hclear]; rfl⟩
  refine hentered.trans ?_
  split
  · rename_i hactive
    have hactive' : w₁.subscriptionActive = true := hactive
    have hcleared : Runs { w₁ with run := false } .testActive
        { w₁ with run := false, subscriptionActive := false } .testThread :=
      .via { w₁ with run := false } .clearActive
        (.access .proceed trivial fun history => ⟨history, by
          simp [Shared.exec, Shared.proceed, hactive']⟩)
        (.access .proceed trivial fun history => ⟨history, rfl⟩)
    refine hcleared.trans ?_
    split
    · rename_i hthread
      refine .via { w₁ with run := false, subscriptionActive := false } .recordRemoval ?_ ?_
      · refine .access .proceed trivial fun history => ⟨history, ?_⟩
        simp [Shared.exec, Shared.proceed, show w₁.opcuaThread.isSome = true from hthread]
      · exact .access .proceed trivial fun history => ⟨_, rfl⟩
    · rename_i hthread
      have hnone : w₁.opcuaThread = none := by simpa using hthread
      refine .via { w₁ with run := false, subscriptionActive := false } (.delete .deactivate) ?_ ?_
      · refine .access .proceed trivial fun history => ⟨history, ?_⟩
        simp [Shared.exec, Shared.proceed, hnone]
      · exact (removeSubscription_runs reply _ .deactivate).congr rfl
  · rename_i hactive
    have hactive' : w₁.subscriptionActive = false := by simpa using hactive
    refine .access .proceed trivial fun history => ⟨history, ?_⟩
    simp [Shared.exec, Shared.proceed, hactive']

/-- `createSubscription`, when the id of a GOOD answer is not zero. -/
theorem createSubscription_runs {r : Replies V}
    (hid : r.subscriptionsCreate.result.serviceResult.isGood = true →
      r.subscriptionsCreate.result.subscriptionId ≠ 0) (w : World V) :
    Runs w .idle (createSubscription r w).world .idle := by
  have hentered : Runs w .idle w .testID :=
    .access .createSubscription trivial fun history => ⟨history, rfl⟩
  have hclean : Runs w .testID (cleanUpSubscription r.subscriptionsDelete w) .request := by
    unfold cleanUpSubscription
    split
    · rename_i hne
      refine .via w (.delete .createSubscription) ?_
        (removeSubscription_runs _ w .createSubscription)
      refine .access .proceed trivial fun history => ⟨history, ?_⟩
      simp [Shared.exec, Shared.proceed, hne]
    · rename_i hzero
      have hzero' : w.subscriptionID = 0 := by simpa using hzero
      refine .access .proceed trivial fun history => ⟨history, ?_⟩
      simp [Shared.exec, Shared.proceed, hzero']
  refine (hentered.trans hclean).trans ?_
  unfold createSubscription requestSubscription
  generalize cleanUpSubscription r.subscriptionsDelete w = w₁
  let response := r.subscriptionsCreate.result
  obtain ⟨σs, hσs⟩ := libraryCall_signals (.subscriptionsCreate w₁.publishingInterval response)
    r.subscriptionsCreate.callbacks w₁
  let w₂ := libraryCall (.subscriptionsCreate w₁.publishingInterval response)
    r.subscriptionsCreate.callbacks w₁
  simp only
  split
  · rename_i hgood
    have hanswered : Runs w₁ .request w₂ (.storeID response.subscriptionId) := by
      refine .step (.requestSubscription (some response.subscriptionId) σs) (hid hgood) ?_
      rintro ⟨l, app, history⟩ ⟨rfl, rfl⟩
      exact ⟨_, rfl, hσs _ rfl, rfl⟩
    have hstored : Runs w₂ (.storeID response.subscriptionId)
        { w₂ with subscriptionID := response.subscriptionId } .setActive :=
      .access .proceed trivial fun history => ⟨history, rfl⟩
    refine (hanswered.trans hstored).trans ?_
    exact .access .proceed trivial fun history => ⟨history, rfl⟩
  · refine .step (.requestSubscription none σs) trivial ?_
    rintro ⟨l, app, history⟩ ⟨rfl, rfl⟩
    exact ⟨_, rfl, hσs _ rfl, rfl⟩

/-- `start`, when there is no thread object to be replaced. -/
theorem start_runs (hthread : w.opcuaThread = none) : Runs w .idle (start w) .idle := by
  unfold start
  split
  · rename_i hactive
    rw [if_neg (by simp [hthread])]
    refine .via { w with run := true } .spawn ?_ ?_
    · refine .access .start trivial fun history => ⟨history, ?_⟩
      simp [Shared.exec, Shared.enter, hactive]
    · refine .access .proceed trivial fun history => ⟨history, ?_⟩
      simp [Shared.exec, Shared.proceed, hthread]
  · rename_i hactive
    refine .access .start trivial fun history => ⟨history, ?_⟩
    simp [Shared.exec, Shared.enter, hactive]

/-! ## The client thread -/

/-- A step of the client thread, wherever the application is. -/
theorem clientStep_runs (iterate removal : Reply V UA_StatusCode)
    (hthread : w.opcuaThread ≠ none) (hended : w.opcuaThread ≠ some .ended) (app : Application) :
    Runs w app (clientStep iterate removal w) app := by
  unfold clientStep
  split
  · rename_i ht
    refine .access (.client true []) trivial fun history => ⟨history, ?_⟩
    simp [Shared.exec, Shared.clientStep, ht]
  · rename_i ht
    -- `UA_Client_run_iterate` calls back
    obtain ⟨σs, hσs⟩ := runCallbacks_signals iterate.callbacks w
    refine .step (.client iterate.result.isGood σs) trivial ?_
    rintro ⟨l, app, history⟩ ⟨rfl, rfl⟩
    have hlife := hσs ⟨w.toLifecycle, app, history⟩ rfl
    have happ := Shared.signals_app ⟨w.toLifecycle, app, history⟩ σs
    simp only [Shared.exec, Shared.clientStep, ht]
    generalize runCallbacks iterate.callbacks w = w₁ at hlife ⊢
    generalize Shared.signals ⟨w.toLifecycle, app, history⟩ σs = s₁ at hlife happ
    refine ⟨_, rfl, ?_, happ⟩
    simp only [hlife]
    by_cases hr : w₁.subscriptionNeedsToBeRemoved = true
    · simp [hr]
    · cases hgood : iterate.result.isGood <;> simp [hr]
  · rename_i ht
    by_cases hr : w.subscriptionNeedsToBeRemoved = true
    · -- the removal that the application recorded
      rw [if_pos hr]
      obtain ⟨σs, hσs⟩ := libraryCall_signals (.subscriptionsDelete w.subscriptionID removal.result)
        removal.callbacks w
      refine .step (.client true σs) trivial ?_
      rintro ⟨l, app, history⟩ ⟨rfl, rfl⟩
      let s₁ : Shared := ⟨w.toLifecycle, app, .deleted w.subscriptionID true :: history⟩
      have hlife := hσs s₁ rfl
      refine ⟨{ s₁.signals σs with
        subscriptionID := 0
        subscriptionNeedsToBeRemoved := false
        opcuaThread := some .finishing }, ?_, ?_, Shared.signals_app s₁ σs⟩
      · simp [Shared.exec, Shared.clientStep, ht, hr, Shared.removeRecorded, Shared.record, s₁]
      · simp only [hlife]
        rfl
    · rw [if_neg hr]
      refine .access (.client true []) trivial fun history => ⟨history, ?_⟩
      simp [Shared.exec, Shared.clientStep, ht, hr]
  · rename_i ht
    refine .access (.client true []) trivial fun history => ⟨history, ?_⟩
    simp [Shared.exec, Shared.clientStep, ht]
  · rename_i ht
    exact absurd ht hended
  · rename_i ht
    exact absurd ht hthread

/-- The join returns when there is no thread, or when it has ended. -/
theorem joined_runs {w' : World V} (h : (w.opcuaThread = none ∧ w' = w) ∨
    (w.opcuaThread = some .ended ∧ w' = { w with opcuaThread := none })) :
    Runs w .join w' .idle := by
  refine .access .proceed trivial fun history => ⟨history, ?_⟩
  rcases h with ⟨ht, rfl⟩ | ⟨ht, rfl⟩ <;> simp [Shared.exec, Shared.proceed, ht]

/-- `stopClientThread`, when the thread comes to its end. -/
theorem stopClientThread_runs
    {steps : List (Reply V UA_StatusCode × Reply V UA_StatusCode)}
    (hend : (stopClientThread steps w).opcuaThread = none) :
    Runs w .join (stopClientThread steps w) .idle := by
  induction steps generalizing w with
  | nil =>
    unfold stopClientThread at hend ⊢
    split at hend
    · rename_i ht
      exact joined_runs (.inl ⟨ht, rfl⟩)
    · rename_i ht
      exact joined_runs (.inr ⟨ht, rfl⟩)
    · rename_i t hne ht
      have hsome : w.opcuaThread = none := hend
      exact absurd (ht.symm.trans hsome) (by simp)
  | cons step steps ih =>
    unfold stopClientThread at hend ⊢
    split at hend
    · rename_i ht
      exact joined_runs (.inl ⟨ht, rfl⟩)
    · rename_i ht
      exact joined_runs (.inr ⟨ht, rfl⟩)
    · rename_i t hne ht
      -- the join lets the client thread go on
      exact (clientStep_runs step.1 step.2 (by simp [ht]) (by simpa [ht] using hne) .join).trans
        (ih hend)

/-- `unsubscribe`, once it has removed an item with a monitored item. -/
theorem unsubscribeItem_runs {r : Replies V} (browseName : String) (id : Nat)
    (hend : w.items.size = 0 → (unsubscribeItem r browseName id w).opcuaThread = none) :
    Runs w .idle (unsubscribeItem r browseName id w) .idle := by
  let e : Event V :=
    .deleteMonitoredItem w.subscriptionID id browseName r.deleteMonitoredItem.result
  have hsize : (libraryCall e r.deleteMonitoredItem.callbacks w).items.size = w.items.size :=
    (libraryCall_frame w e _).size
  obtain ⟨σs, hσs⟩ := libraryCall_signals e r.deleteMonitoredItem.callbacks w
  have hcall : Runs w .idle (libraryCall e r.deleteMonitoredItem.callbacks w) .idle := by
    refine .step (.call σs) trivial ?_
    rintro ⟨l, app, history⟩ ⟨rfl, rfl⟩
    exact ⟨_, rfl, hσs _ rfl, Shared.signals_app _ _⟩
  unfold unsubscribeItem at hend ⊢
  simp only at hend ⊢
  refine hcall.trans ?_
  generalize libraryCall e r.deleteMonitoredItem.callbacks w = w₁ at hsize hend ⊢
  by_cases hzero : w₁.items.size = 0
  · rw [if_pos hzero] at hend ⊢
    let w₂ := removeSubscription r.subscriptionsDelete w₁
    have hentered : Runs w₁ .idle w₁ (.delete .unsubscribe) :=
      .access .unsubscribeLast trivial fun history => ⟨history, rfl⟩
    have hcleared : Runs w₂ .clearRun { w₂ with run := false } .join :=
      .access .proceed trivial fun history => ⟨history, rfl⟩
    have hremoved := hentered.trans (removeSubscription_runs r.subscriptionsDelete w₁ .unsubscribe)
    exact (hremoved.trans hcleared).trans (stopClientThread_runs (hend (hsize ▸ hzero)))
  · rw [if_neg hzero]
    exact .refl _ _

end OpcUaBackend
