import OpcUaBackend.Backend.ClientLoop
import OpcUaBackend.Manager.Changes

/-!
# Closing the device, and opening it again

A device that is closed is given up whole: its thread is joined, nothing is monitored, and no
value reaches an accessor while nothing connects, activates or subscribes. When it is opened
again and asynchronous reading is activated, every register is served as before. The loop that
serves it stays only when the closing has left no removal behind: a removal that is recorded
for a thread past its clean-up is taken by the next thread, which then ends.

## Main definitions

* `Aside`: what callbacks do to a device that is not open
* `World.Halted`, `World.Closed`: a device while and after it is closed
* `Lifecycle.Recovers`: the closing leaves no removal behind

## Main results

* `reach_closed`: closing from any state of a run
* `reach_reopened`: closing, opening and activating from any state of a run
-/

namespace OpcUaBackend

open Foundation

variable {V : Type} {w w' w'' : World V}

/-! ## Callbacks while the device is not open -/

/-- The states of the connection. -/
def World.connection (w : World V) : UA_SecureChannelState × UA_SessionState :=
  (w.channelState, w.sessionState)

/-- The states that a callback reports. -/
def Callback.connection : Callback V → Option (UA_SecureChannelState × UA_SessionState)
  | .state channelState sessionState => some (channelState, sessionState)
  | _ => none

/-- The states that are reported last. -/
def lastConnection (cs : List (Callback V)) :
    Option (UA_SecureChannelState × UA_SessionState) :=
  (cs.filterMap Callback.connection).getLast?

theorem World.isConnected_iff : w.isConnected = true ↔ w.connection = (.open, .activated) := by
  simp [isConnected, connection, and_comm]

/-- `w'` is `w` after something that does not count for a device that is not open: neither the
loop nor an address changes, and nothing fails. -/
structure Aside (w w' : World V) : Prop where
  frame : Frame w w'
  opened : w'.opened = w.opened
  loop : w'.loop = w.loop
  asyncReadActive : w'.asyncReadActive = w.asyncReadActive
  fault : w'.fault = w.fault

namespace Aside

protected theorem refl (w : World V) : Aside w w := ⟨.refl w, rfl, rfl, rfl, rfl⟩

protected theorem trans (h : Aside w w') (h' : Aside w' w'') : Aside w w'' where
  frame := h.frame.trans h'.frame
  opened := h'.opened.trans h.opened
  loop := h'.loop.trans h.loop
  asyncReadActive := h'.asyncReadActive.trans h.asyncReadActive
  fault := h'.fault.trans h.fault

theorem run (h : Aside w w') : w'.run = w.run := congrArg (·.1) h.loop

theorem kept (h : Aside w w') :
    w'.subscriptionNeedsToBeRemoved = w.subscriptionNeedsToBeRemoved := congrArg (·.2.1) h.loop

theorem idle (h : Aside w w') (hw : w.subscriptionActive = false) :
    w'.subscriptionActive = false := by
  by_contra hactive
  have hold := (h.frame.active (by simpa using hactive)).1
  exact absurd (hold.symm.trans hw) (by simp)

end Aside

theorem pushAll_opened (n : Notification V) (as : List Accessor) (w : World V) :
    (w.pushAll n as).opened = w.opened ∧ (w.pushAll n as).connection = w.connection := by
  induction as generalizing w with
  | nil => exact ⟨rfl, rfl⟩
  | cons a as ih => exact ih (w.push n a)

theorem responseHandler_opened (monId : Nat) (value : DataValue V) (w : World V) :
    (responseHandler monId value w).opened = w.opened ∧
      (responseHandler monId value w).connection = w.connection := by
  unfold responseHandler
  split
  · exact ⟨rfl, rfl⟩
  · split
    · exact ⟨rfl, rfl⟩
    · split
      · exact pushAll_opened _ _ _
      · exact ⟨rfl, rfl⟩

/-- A state callback only notes the states. -/
theorem stateCallback_unopened (ho : w.opened = false) (channelState : UA_SecureChannelState)
    (sessionState : UA_SessionState) : stateCallback channelState sessionState w
      = { w with channelState := channelState, sessionState := sessionState } := by
  simp [stateCallback, ho]

theorem inactivityCallback_unopened (ho : w.opened = false) (subId : Nat) :
    inactivityCallback subId w = w := by
  simp [inactivityCallback, World.isFunctional, ho]

theorem Coherent.frame (f : Frame w w') (h : Coherent w) : Coherent w' := by
  constructor
  · intro m p hl
    rw [f.subscriptionMap] at hl
    obtain ⟨i, item, rfl, hitem, hid, hm⟩ := h.sound m p hl
    obtain ⟨item', hitem', hcore⟩ := f.symm_getElem? hitem
    obtain ⟨-, -, hid', hm', -⟩ := MonitorItem.core_inj.mp hcore
    exact ⟨i, item', (f.slot i).symm, hitem', hid'.trans hid, hm'.trans hm⟩
  · intro i item' hitem' hm
    obtain ⟨item, hitem, hcore⟩ := f.getElem? hitem'
    obtain ⟨-, -, hid, hmon, -⟩ := MonitorItem.core_inj.mp hcore
    rw [f.subscriptionMap, f.slot, hid]
    exact h.complete i item hitem (hmon.symm.trans hm)

/-- Nothing that is called back counts, and the addresses are followed to items. -/
theorem runCallback_aside (h : Coherent w) (ho : w.opened = false) (c : Callback V) :
    Aside w (runCallback w c) := by
  have hframe := runCallback_frame w c
  cases c with
  | state channelState sessionState =>
    have he : runCallback w (.state channelState sessionState) = _ :=
      stateCallback_unopened ho channelState sessionState
    rw [he] at hframe ⊢
    exact ⟨hframe, rfl, rfl, rfl, rfl⟩
  | inactivity subId =>
    have he : runCallback w (.inactivity subId) = w := inactivityCallback_unopened ho subId
    rw [he]
    exact .refl w
  | deleteSubscription subId => exact ⟨hframe, rfl, rfl, rfl, rfl⟩
  | dataChange monId value =>
    have hcalm := responseHandler_calm monId value w
    exact ⟨hframe, (responseHandler_opened monId value w).1,
      congrArg Lifecycle.loop hcalm.lifecycle, hcalm.asyncReadActive,
      (h.delivers monId value).fault⟩

theorem runCallbacks_aside (h : Coherent w) (ho : w.opened = false)
    (cs : List (Callback V)) : Aside w (runCallbacks cs w) := by
  induction cs generalizing w with
  | nil => exact .refl w
  | cons c cs ih =>
    have hc := runCallback_aside h ho c
    exact hc.trans (ih (h.frame hc.frame) (hc.opened.trans ho))

/-- The connection is what the callbacks report last. -/
theorem runCallbacks_connection (h : Coherent w) (ho : w.opened = false)
    (cs : List (Callback V)) :
    (runCallbacks cs w).connection = (lastConnection cs).getD w.connection := by
  induction cs generalizing w with
  | nil => rfl
  | cons c cs ih =>
    have hc := runCallback_aside h ho c
    refine (ih (h.frame hc.frame) (hc.opened.trans ho)).trans ?_
    cases c with
    | state channelState sessionState =>
      simp [lastConnection, Callback.connection, runCallback, stateCallback_unopened ho,
        List.getLast?_cons, World.connection]
    | inactivity subId =>
      simp [lastConnection, Callback.connection, runCallback, inactivityCallback_unopened ho]
    | deleteSubscription subId => rfl
    | dataChange monId value =>
      exact congrArg ((lastConnection cs).getD ·) (responseHandler_opened monId value w).2

/-- A connection of which no loss is reported stays. -/
theorem runCallbacks_isConnected (h : Coherent w) (ho : w.opened = false)
    {cs : List (Callback V)} (hcs : ∀ c ∈ cs, c.isLoss = false) (hw : w.isConnected = true) :
    (runCallbacks cs w).isConnected = true := by
  apply World.isConnected_iff.mpr
  rw [runCallbacks_connection h ho, World.isConnected_iff.mp hw]
  cases hlast : lastConnection cs with
  | none => rfl
  | some states =>
    obtain ⟨c, hc, hstates⟩ := List.mem_filterMap.mp (List.mem_of_getLast? hlast)
    have hloss := hcs c hc
    cases c with
    | state channelState sessionState =>
      obtain rfl := Option.some_inj.mp hstates
      simpa [Callback.isLoss] using hloss
    | _ => cases hstates

/-! ## The device while it is closed -/

/-- The device is not open, its loop is not to go on, and nothing is monitored. -/
structure World.Halted (w : World V) : Prop where
  bookkept : Bookkept True w
  opened : w.opened = false
  run : w.run = false
  subscriptionActive : w.subscriptionActive = false
  asyncReadActive : w.asyncReadActive = false
  subscriptionManager : w.subscriptionManager = true
  unmonitored : w.Unmonitored
  fault : w.fault = none

/-- How often the thread goes on until it has ended, when its loop is not to go on. -/
def ClientThread.remaining : ClientThread → Nat
  | loopHead => 3
  | iterating => 4
  | cleanUp => 2
  | finishing => 1
  | ended => 0

/-- No thread is before the clean-up in which it takes a recorded removal. -/
def Lifecycle.Past (l : Lifecycle) : Prop :=
  ∀ t ∈ l.opcuaThread, t = .finishing ∨ t = .ended

instance (l : Lifecycle) : Decidable l.Past := by
  unfold Lifecycle.Past; infer_instance

/-- A removal is recorded that no thread takes. -/
def Lifecycle.Stranded (l : Lifecycle) : Prop :=
  l.Past ∧ l.subscriptionNeedsToBeRemoved = true

namespace World.Halted

theorem aside (h : w.Halted) (ha : Aside w w') : w'.Halted where
  bookkept := h.bookkept.frame ha.frame
  opened := ha.opened.trans h.opened
  run := ha.run.trans h.run
  subscriptionActive := ha.idle h.subscriptionActive
  asyncReadActive := ha.asyncReadActive.trans h.asyncReadActive
  subscriptionManager := ha.frame.subscriptionManager.trans h.subscriptionManager
  unmonitored := h.unmonitored.frame ha.frame
  fault := ha.fault.trans h.fault

theorem runCallbacks (h : w.Halted) (cs : List (Callback V)) : (runCallbacks cs w).Halted :=
  h.aside (runCallbacks_aside (h.bookkept.2 trivial) h.opened cs)

/-- A change of the thread, of a recorded removal, of the history or of the id. -/
theorem of_bookkept (h : w.Halted) (hb : Bookkept True w') (hu : w'.Unmonitored)
    (ho : w'.opened = w.opened) (hr : w'.run = false)
    (ha : w'.subscriptionActive = w.subscriptionActive)
    (hasync : w'.asyncReadActive = w.asyncReadActive)
    (hm : w'.subscriptionManager = w.subscriptionManager) (hf : w'.fault = w.fault) :
    w'.Halted :=
  ⟨hb, ho.trans h.opened, hr, ha.trans h.subscriptionActive, hasync.trans h.asyncReadActive,
    hm.trans h.subscriptionManager, hu, hf.trans h.fault⟩

theorem removeSubscription (h : w.Halted) (reply : Reply V UA_StatusCode) :
    (removeSubscription reply w).Halted ∧
      (OpcUaBackend.removeSubscription reply w).loop = w.loop := by
  have hrecord : Bookkept True (w.record (.subscriptionsDelete w.subscriptionID reply.result)) :=
    h.bookkept.record ⟨rfl, rfl⟩
  have ha := runCallbacks_aside (hrecord.2 trivial) h.opened reply.callbacks
  have hhalted : (libraryCall (.subscriptionsDelete w.subscriptionID reply.result)
      reply.callbacks w).Halted :=
    (h.of_bookkept hrecord h.unmonitored rfl h.run rfl rfl rfl rfl).aside ha
  refine ⟨?_, ha.loop⟩
  exact hhalted.of_bookkept (h.bookkept.removeSubscription reply)
    (removeSubscription_unmonitored reply w) rfl hhalted.run rfl rfl rfl rfl

/-- A thread that goes on comes closer to its end, and takes no removal but its own. -/
theorem clientStep (h : w.Halted) {t : ClientThread} (ht : w.opcuaThread = some t)
    (hne : t ≠ .ended) (iterate removal : Reply V UA_StatusCode) :
    (clientStep iterate removal w).Halted ∧
      ((OpcUaBackend.clientStep iterate removal w).Stranded ↔ w.Stranded) ∧
      ∃ t', (OpcUaBackend.clientStep iterate removal w).opcuaThread = some t' ∧
        t'.remaining < t.remaining := by
  have hb := h.bookkept.clientStep iterate removal
  have hu := h.unmonitored.clientStep iterate removal
  unfold OpcUaBackend.clientStep at hb hu ⊢
  rw [ht] at hb hu ⊢
  cases t with
  | loopHead =>
    -- the loop is left
    simp only [h.run, Bool.false_eq_true, if_false] at hb hu ⊢
    refine ⟨h.of_bookkept hb hu rfl rfl rfl rfl rfl rfl, ?_, .cleanUp, rfl, by decide⟩
    simp [Lifecycle.Stranded, Lifecycle.Past, ht]
  | iterating =>
    have h₁ := h.runCallbacks iterate.callbacks
    have hthread : (OpcUaBackend.runCallbacks iterate.callbacks w).opcuaThread = some .iterating :=
      (runCallbacks_frame w iterate.callbacks).opcuaThread.trans ht
    have hold : ¬ w.Stranded := by simp [Lifecycle.Stranded, Lifecycle.Past, ht]
    simp only at hb hu ⊢
    generalize OpcUaBackend.runCallbacks iterate.callbacks w = w₁ at h₁ hthread hb hu ⊢
    split
    · rename_i hflag
      rw [if_pos hflag] at hb hu
      refine ⟨h₁.of_bookkept hb hu rfl h₁.run rfl rfl rfl rfl, iff_of_false ?_ hold,
        .cleanUp, rfl, by decide⟩
      simp [Lifecycle.Stranded, Lifecycle.Past]
    · rename_i hflag
      rw [if_neg hflag] at hb hu
      split
      · rename_i hgood
        rw [if_pos hgood] at hb hu
        refine ⟨h₁.of_bookkept hb hu rfl h₁.run rfl rfl rfl rfl, iff_of_false ?_ hold,
          .loopHead, rfl, by decide⟩
        simp [Lifecycle.Stranded, Lifecycle.Past]
      · rename_i hbad
        rw [if_neg hbad] at hb hu
        refine ⟨h₁.of_bookkept hb hu rfl h₁.run rfl rfl rfl rfl, iff_of_false ?_ hold,
          .cleanUp, rfl, by decide⟩
        simp [Lifecycle.Stranded, Lifecycle.Past]
  | cleanUp =>
    have hold : ¬ w.Stranded := by simp [Lifecycle.Stranded, Lifecycle.Past, ht]
    simp only at hb hu ⊢
    split
    · -- the recorded removal is taken
      rename_i hflag
      rw [if_pos hflag] at hb hu
      have h₁ := (h.removeSubscription removal).1
      refine ⟨h₁.of_bookkept hb hu rfl h₁.run rfl rfl rfl rfl, iff_of_false ?_ hold,
        .finishing, rfl, by decide⟩
      simp [Lifecycle.Stranded]
    · rename_i hflag
      rw [if_neg hflag] at hb hu
      refine ⟨h.of_bookkept hb hu rfl h.run rfl rfl rfl rfl, iff_of_false ?_ hold,
        .finishing, rfl, by decide⟩
      simp [Lifecycle.Stranded, hflag]
  | finishing =>
    refine ⟨h.of_bookkept hb hu rfl rfl rfl rfl rfl rfl, ?_, .ended, rfl, by decide⟩
    simp [Lifecycle.Stranded, Lifecycle.Past, ht]
  | ended => exact absurd rfl hne

/-- **The join** returns when the library lets the thread go on as often as remains. -/
theorem stopClientThread (h : w.Halted)
    {steps : List (Reply V UA_StatusCode × Reply V UA_StatusCode)}
    (hn : ∀ t ∈ w.opcuaThread, t.remaining ≤ steps.length) :
    (stopClientThread steps w).Halted ∧
      (OpcUaBackend.stopClientThread steps w).opcuaThread = none ∧
      ((OpcUaBackend.stopClientThread steps w).Stranded ↔ w.Stranded) := by
  induction steps generalizing w with
  | nil =>
    unfold OpcUaBackend.stopClientThread
    split
    · rename_i ht
      exact ⟨h, ht, .rfl⟩
    · rename_i ht
      refine ⟨h.of_bookkept (h.bookkept.of_flags rfl rfl rfl rfl id) h.unmonitored rfl h.run rfl rfl
        rfl rfl, rfl, ?_⟩
      simp [Lifecycle.Stranded, Lifecycle.Past, ht]
    · rename_i t hne ht
      have hzero := hn t ht
      cases t <;> simp_all [ClientThread.remaining]
  | cons step steps ih =>
    unfold OpcUaBackend.stopClientThread
    split
    · rename_i ht
      exact ⟨h, ht, .rfl⟩
    · rename_i ht
      refine ⟨h.of_bookkept (h.bookkept.of_flags rfl rfl rfl rfl id) h.unmonitored rfl h.run rfl rfl
        rfl rfl, rfl, ?_⟩
      simp [Lifecycle.Stranded, Lifecycle.Past, ht]
    · rename_i t hne ht
      obtain ⟨hstep, hstranded, t', ht', hlt⟩ := h.clientStep ht (by simpa [ht] using hne)
        step.1 step.2
      have hle : t.remaining ≤ steps.length + 1 := hn t ht
      obtain ⟨hend, hnone, hsame⟩ := ih hstep fun t'' ht'' => by
        obtain rfl : t' = t'' := Option.some_inj.mp (ht'.symm.trans ht'')
        omega
      exact ⟨hend, hnone, hsame.trans hstranded⟩

end World.Halted

/-- The addresses are followed to items. -/
theorem Coherent.clearActive_eq (h : Coherent w) :
    clearActive w = { w with items := (clearActive w).items } := by
  have hall : ((w.subscriptionMap.entries.map (·.2)).all fun p => (w.items.get? p).isSome)
      = true := by
    apply List.all_eq_true.mpr
    intro p hp
    obtain ⟨entry, hentry, rfl⟩ := List.mem_map.mp hp
    obtain ⟨item, hitem, -⟩ := h.served_eq (AList.mem_lookup_iff.mpr hentry)
    exact Option.isSome_iff_exists.mpr ⟨item, hitem⟩
  unfold clearActive
  simp only
  rw [if_pos hall]

/-- What `deactivate` does to the flags that decide about the loop. -/
def Lifecycle.deactivated (l : Lifecycle) : Bool × Bool × Option ClientThread :=
  (false, l.subscriptionNeedsToBeRemoved || (l.subscriptionActive && l.opcuaThread.isSome),
    l.opcuaThread)

/-- `deactivate` and `resetMonitoredItems`, on a device that is not open. -/
theorem deactivate_halted (h : Bookkept True w) (ho : w.opened = false)
    (hm : w.subscriptionManager = true) (hf : w.fault = none) (reply : Reply V UA_StatusCode) :
    (resetMonitoredItems (deactivate (removeSubscription reply) w)).Halted ∧
      (resetMonitoredItems (deactivate (removeSubscription reply) w)).loop = w.deactivated := by
  have hbook := (h.deactivate (·.removeSubscription reply)).resetMonitoredItems
  have hu := resetMonitoredItems_unmonitored (deactivate (removeSubscription reply) w)
  have hclear := h.frame (clearActive_frame w)
  have heq := (h.2 trivial).clearActive_eq
  revert hbook hu hclear
  unfold deactivate
  rw [heq]
  generalize (clearActive w).items = items
  intro hbook hu hclear
  simp only at hbook hu ⊢
  split
  · rename_i hactive
    have h₂ : Bookkept True { w with items, run := false, subscriptionActive := false } :=
      hclear.of_flags rfl rfl rfl rfl fun ha => by cases ha
    rw [if_pos hactive] at hbook hu
    split
    · rename_i hthread
      rw [if_pos hthread] at hbook hu
      refine ⟨⟨hbook, ho, rfl, rfl, rfl, hm, hu, hf⟩, ?_⟩
      show (false, true, w.opcuaThread) = _
      simp [Lifecycle.deactivated, show w.subscriptionActive = true from hactive,
        show w.opcuaThread.isSome = true from hthread]
    · -- there is no thread, and the subscription is removed at once
      rename_i hthread
      rw [if_neg hthread] at hbook hu
      have hnone : w.opcuaThread = none := by simpa using hthread
      have hrecord := h₂.record (e := .subscriptionsDelete w.subscriptionID reply.result) ⟨rfl, rfl⟩
      have ha := runCallbacks_aside (hrecord.2 trivial) ho reply.callbacks
      refine ⟨⟨hbook, ha.opened.trans ho, ha.run, ha.idle rfl, rfl,
        ha.frame.subscriptionManager.trans hm, hu, ha.fault.trans hf⟩, ?_⟩
      exact ha.loop.trans (by simp [Lifecycle.deactivated, Lifecycle.loop, hnone, World.record])
  · rename_i hactive
    rw [if_neg hactive] at hbook hu
    have hidle : w.subscriptionActive = false := by simpa using hactive
    refine ⟨⟨hbook, ho, rfl, hidle, rfl, hm, hu, hf⟩, ?_⟩
    show (false, w.subscriptionNeedsToBeRemoved, w.opcuaThread) = _
    simp [Lifecycle.deactivated, hidle]

/-- No removal is left behind when the device is closed: a thread that is past its clean-up has none
recorded, and is not asked for one. -/
def Lifecycle.Recovers (l : Lifecycle) : Prop :=
  l.Past → l.subscriptionNeedsToBeRemoved = false ∧
    (l.subscriptionActive = true → l.opcuaThread = none)

instance (l : Lifecycle) : Decidable l.Recovers := by
  unfold Lifecycle.Recovers; infer_instance

theorem Lifecycle.not_recovers_iff {l l' : Lifecycle} (h : l'.loop = l.deactivated) :
    l'.Stranded ↔ ¬ l.Recovers := by
  obtain ⟨-, hflag, hthread⟩ : l'.run = false ∧ l'.subscriptionNeedsToBeRemoved
      = (l.subscriptionNeedsToBeRemoved || (l.subscriptionActive && l.opcuaThread.isSome)) ∧
        l'.opcuaThread = l.opcuaThread := by
    simpa [Lifecycle.loop, Lifecycle.deactivated] using h
  have hpast : l'.Past ↔ l.Past := by rw [Past, Past, hthread]
  unfold Stranded Recovers
  rw [hpast, hflag, Classical.not_imp]
  refine and_congr_right fun _ => ?_
  cases l.subscriptionNeedsToBeRemoved <;> cases l.subscriptionActive <;>
    cases l.opcuaThread <;> simp

theorem ClientThread.remaining_le (t : ClientThread) : t.remaining ≤ 4 := by
  cases t <;> decide

/-- `resetClient` on a device that is not open: the thread is joined. -/
theorem resetClient_halted {r : Replies V} (h : Bookkept True w) (ho : w.opened = false)
    (hm : w.subscriptionManager = true) (hf : w.fault = none)
    (hn : ∀ t ∈ w.opcuaThread, t.remaining ≤ r.clientSteps.length) :
    (resetClient r w).Halted ∧ (resetClient r w).opcuaThread = none ∧
      ((resetClient r w).subscriptionNeedsToBeRemoved = true ↔ ¬ w.Recovers) ∧
      ∀ states, lastConnection r.disconnect.callbacks = some states →
        (resetClient r w).connection = states := by
  obtain ⟨hhalted, hloop⟩ := deactivate_halted h ho hm hf r.subscriptionsDelete
  have hthread := congrArg (·.2.2) hloop
  unfold resetClient
  rw [if_pos hm]
  simp only
  generalize resetMonitoredItems (deactivate (removeSubscription r.subscriptionsDelete) w) = w₁
    at hhalted hloop hthread ⊢
  have hthread' : w₁.opcuaThread = w.opcuaThread := hthread
  obtain ⟨hend, hnone, hstranded⟩ := hhalted.stopClientThread (hthread' ▸ hn)
  generalize stopClientThread r.clientSteps w₁ = w₂ at hend hnone hstranded ⊢
  have ha := runCallbacks_aside (hend.bookkept.2 trivial) hend.opened r.disconnect.callbacks
  refine ⟨hend.aside ha, ha.frame.opcuaThread.trans hnone, ?_, fun states hstates => ?_⟩
  · rw [ha.kept, ← Lifecycle.not_recovers_iff hloop, ← hstranded]
    simp [Lifecycle.Stranded, Lifecycle.Past, hnone]
  · rw [runCallbacks_connection (hend.bookkept.2 trivial) hend.opened, hstates]
    rfl

/-! ## No values without addresses -/

/-- The event is the push of a value. -/
def Event.isValue : Event V → Bool
  | .pushed _ (.data _) => true
  | _ => false

/-- From a state without addresses no value is pushed, and no address comes in. -/
def Mute (w w' : World V) : Prop :=
  w.subscriptionMap.entries = [] → w'.subscriptionMap.entries = [] ∧
    Extends (fun e => e.isValue = false) w.history w'.history

namespace Mute

protected theorem refl (w : World V) : Mute w w := fun h => ⟨h, .refl _⟩

protected theorem trans (h : Mute w w') (h' : Mute w' w'') : Mute w w'' := by
  intro hw
  obtain ⟨hmap, hx⟩ := h hw
  obtain ⟨hmap', hx'⟩ := h' hmap
  exact ⟨hmap', hx.trans hx'⟩

theorem of_eq (hmap : w'.subscriptionMap = w.subscriptionMap) (hx : w'.history = w.history) :
    Mute w w' :=
  fun hw => ⟨hmap ▸ hw, hx ▸ .refl _⟩

theorem record {e : Event V} (he : e.isValue = false) : Mute w (w.record e) :=
  fun hw => ⟨hw, [e], rfl, by simpa using he⟩

end Mute

section Silence

variable (w)

theorem handleException_mute (message : String) : Mute w (handleException message w) := by
  intro hw
  refine ⟨(handleException_frame w message).subscriptionMap ▸ hw, ?_⟩
  -- what is pushed is the exception
  refine ⟨_, (pushAll_delivered (.exception message) _
    { w with items := w.items.map MonitorItem.raise }).history, fun e he => ?_⟩
  obtain ⟨a, -, rfl⟩ := List.mem_map.mp (List.mem_reverse.mp he)
  rfl

theorem deactivate_mute {removal : World V → World V} (hr : ∀ w, Mute w (removal w)) :
    Mute w (deactivate removal w) := by
  let w₁ : World V := { clearActive w with run := false, subscriptionActive := false }
  have hclear : Mute w (clearActive w) := by
    apply Mute.of_eq (clearActive_frame w).subscriptionMap
    unfold clearActive
    simp only
    split <;> rfl
  have h₁ : Mute w w₁ := hclear
  unfold deactivate
  simp only
  split
  · split
    · exact h₁
    · exact h₁.trans (hr w₁)
  · exact h₁

theorem deactivateAllAndPushException_mute {removal : World V → World V}
    (hr : ∀ w, Mute w (removal w)) (message : String) :
    Mute w (deactivateAllAndPushException removal message w) :=
  (handleException_mute w message).trans (deactivate_mute _ hr)

/-- A value for which there is no address is dropped. -/
theorem responseHandler_mute (monId : Nat) (value : DataValue V) :
    Mute w (responseHandler monId value w) := by
  intro hw
  have hnone : w.subscriptionMap.lookup monId = none := by
    apply AList.lookup_eq_none.mpr
    simp [AList.mem_keys, AList.keys, hw]
  rw [responseHandler, hnone]
  exact ⟨hw, .refl _⟩

theorem runCallback_mute (c : Callback V) : Mute w (runCallback w c) := by
  have hfail : ∀ w : World V, Mute w (w.fail .clientLockDeadlock) := fun w => .of_eq rfl rfl
  cases c with
  | state channelState sessionState =>
    let w₁ : World V := { w with channelState := channelState, sessionState := sessionState }
    have h₁ : Mute w w₁ := .of_eq rfl rfl
    simp only [runCallback, stateCallback]
    split
    · exact h₁.trans (deactivateAllAndPushException_mute w₁ hfail _)
    · exact h₁
  | inactivity subId =>
    simp only [runCallback, inactivityCallback]
    split
    · exact deactivateAllAndPushException_mute w hfail _
    · exact .refl w
  | deleteSubscription subId => exact .of_eq rfl rfl
  | dataChange monId value => exact responseHandler_mute w monId value

theorem runCallbacks_mute (cs : List (Callback V)) : Mute w (runCallbacks cs w) := by
  induction cs generalizing w with
  | nil => exact .refl w
  | cons c cs ih => exact (runCallback_mute w c).trans (ih _)

theorem libraryCall_mute {e : Event V} (he : e.isValue = false) (cs : List (Callback V)) :
    Mute w (libraryCall e cs w) :=
  (Mute.record he).trans (runCallbacks_mute _ cs)

theorem resetMonitoredItems_mute : Mute w (resetMonitoredItems w) :=
  fun _ => ⟨rfl, .refl _⟩

theorem removeSubscription_mute (reply : Reply V UA_StatusCode) :
    Mute w (removeSubscription reply w) := by
  have hcall := libraryCall_mute w (e := .subscriptionsDelete w.subscriptionID reply.result) rfl
    reply.callbacks
  exact fun hw => ⟨rfl, (hcall hw).2⟩

theorem clientStep_mute (iterate removal : Reply V UA_StatusCode) :
    Mute w (clientStep iterate removal w) := by
  have hrun := runCallbacks_mute w iterate.callbacks
  unfold clientStep
  split
  · exact .of_eq rfl rfl
  · simp only
    split
    · exact hrun
    · split <;> exact hrun
  · split
    · exact removeSubscription_mute w removal
    · exact .of_eq rfl rfl
  · exact .of_eq rfl rfl
  · exact .refl w
  · exact .refl w

theorem stopClientThread_mute (steps : List (Reply V UA_StatusCode × Reply V UA_StatusCode)) :
    Mute w (stopClientThread steps w) := by
  induction steps generalizing w with
  | nil =>
    unfold stopClientThread
    split <;> exact .of_eq rfl rfl
  | cons step steps ih =>
    unfold stopClientThread
    split
    · exact .refl w
    · exact .of_eq rfl rfl
    · exact (clientStep_mute w step.1 step.2).trans (ih _)

theorem resetClient_mute (r : Replies V) : Mute w (resetClient r w) := by
  let w₁ := deactivate (removeSubscription r.subscriptionsDelete) w
  have h₁ : Mute w w₁ := deactivate_mute w fun w => removeSubscription_mute w _
  unfold resetClient
  simp only
  refine Mute.trans ?_ (runCallbacks_mute _ _)
  split
  · exact (h₁.trans (resetMonitoredItems_mute w₁)).trans (stopClientThread_mute _ _)
  · exact .refl w

theorem unsubscribe_mute (r : Replies V) (browseName : String) (a : Accessor) :
    Mute w (unsubscribe r browseName a w) := by
  unfold unsubscribe
  split
  · exact .refl w
  · rename_i i item hfind
    split
    · split <;> exact .of_eq rfl rfl
    · let w₁ : World V := { w with
        subscriptionMap := w.subscriptionMap.erase item.id
        items := w.items.erase i }
      have h₁ : Mute w w₁ := by
        refine fun hw => ⟨?_, .refl _⟩
        show List.kerase item.id w.subscriptionMap.entries = []
        rw [hw]
        rfl
      have hdelete : Mute w₁ (unsubscribeItem r browseName item.id w₁) := by
        have hcall := libraryCall_mute w₁ (e := .deleteMonitoredItem w₁.subscriptionID item.id
          browseName r.deleteMonitoredItem.result) rfl r.deleteMonitoredItem.callbacks
        unfold unsubscribeItem
        generalize libraryCall (.deleteMonitoredItem w₁.subscriptionID item.id browseName
          r.deleteMonitoredItem.result) r.deleteMonitoredItem.callbacks w₁ = w₂ at hcall
        let w₃ := removeSubscription r.subscriptionsDelete w₂
        simp only
        split
        · exact (hcall.trans (removeSubscription_mute w₂ _)).trans
            (stopClientThread_mute { w₃ with run := false } _)
        · exact hcall
      simp only
      split
      · exact h₁.trans hdelete
      · exact h₁

end Silence

/-- The call neither connects nor activates, registers or subscribes. -/
def Call.Dormant : Call V → Prop
  | .connect _ _ | .openDevice _ _ _ | .activateAsyncRead _ | .constructAccessor _ _ _ _ => False
  | .subscribe _ _ _ _ | .activate _ | .prepare _ | .createSubscription _ => False
  | .addMonitoredItems _ => False
  | _ => True

theorem Call.Dormant.mute {c : Call V} (hc : c.Dormant) (w : World V) :
    Mute w (c.exec w).world := by
  cases c with
  | closeDevice r => exact resetClient_mute { w with opened := false } r
  | setException r =>
    let w₁ : World V := { w with hasActiveException := true }
    show Mute w (OpcUaBackend.setException r w)
    unfold OpcUaBackend.setException
    simp only
    split
    · exact deactivateAllAndPushException_mute w₁ (fun w => removeSubscription_mute w _) _
    · exact .of_eq rfl rfl
  | unsubscribe r browseName a => exact unsubscribe_mute w r browseName a
  | deactivate r => exact deactivate_mute w fun w => removeSubscription_mute w _
  | deactivateAllAndPushException r message =>
    exact deactivateAllAndPushException_mute w (fun w => removeSubscription_mute w _) message
  | setExternalError browseName reporter =>
    show Mute w (OpcUaBackend.setExternalError browseName reporter w)
    unfold OpcUaBackend.setExternalError
    split
    · exact .refl w
    · exact Mute.record rfl
  | resetMonitoredItems => exact resetMonitoredItems_mute w
  | removeSubscription r => exact removeSubscription_mute w _
  | start =>
    show Mute w (OpcUaBackend.start w)
    unfold OpcUaBackend.start
    split
    · split <;> exact .of_eq rfl rfl
    · exact .of_eq rfl rfl
  | stopClientThread r => exact stopClientThread_mute w _
  | clientStep iterate removal => exact clientStep_mute w iterate removal
  | popNotification a => exact .of_eq rfl rfl
  | ownTransfer a data => exact Mute.record (w := w) rfl
  | callbacks cs => exact runCallbacks_mute w cs
  | _ => exact hc.elim

theorem steps_mute {cs : List (Call V)} (hs : (calls V).Steps (fun _ c => c.Dormant) w cs w') :
    Mute w w' := by
  induction hs with
  | nil => exact .refl _
  | cons hc hstep _ ih =>
    obtain ⟨-, rfl, -⟩ := hstep
    exact (hc.mute _).trans ih

/-! ## Closing -/

/-- A device that was closed: it is halted, its thread is joined, and there is no address. -/
structure World.Closed (w : World V) : Prop extends World.Halted w where
  opcuaThread : w.opcuaThread = none
  subscriptionMap : w.subscriptionMap.entries = []

theorem closeDevice_closed {r : Replies V} (h : Bookkept True w)
    (hm : w.subscriptionManager = true) (hf : w.fault = none) (hn : 4 ≤ r.clientSteps.length) :
    (closeDevice r w).Closed ∧
      ((closeDevice r w).subscriptionNeedsToBeRemoved = true ↔ ¬ w.Recovers) ∧
      ∀ states, lastConnection r.disconnect.callbacks = some states →
        (closeDevice r w).connection = states := by
  have hset : Bookkept True { w with opened := false } := h.of_flags rfl rfl rfl rfl id
  obtain ⟨hhalted, hthread, hflag, hconn⟩ := resetClient_halted hset rfl hm hf
    fun t _ => t.remaining_le.trans hn
  refine ⟨⟨hhalted, hthread, ?_⟩, hflag, hconn⟩
  exact entries_eq_nil_of_lookup
    ((hhalted.bookkept.2 trivial).lookup_of_unmonitored hhalted.unmonitored)

/-- **Closing.** Closing the device in any state of a run that keeps the routing, when the library
lets the client thread end, gives it up whole, and no value is pushed to an accessor while
nothing connects, activates, registers or subscribes. -/
theorem reach_closed {r : Replies V} (h : (calls V).Reach Call.KeepsRouting w)
    (hm : w.subscriptionManager = true) (hf : w.fault = none) (hn : 4 ≤ r.clientSteps.length) :
    (closeDevice r w).Closed ∧ ∀ cs w',
      (calls V).Steps (fun _ c => c.Dormant) (closeDevice r w) cs w' →
        Extends (fun e => e.isValue = false) (closeDevice r w).history w'.history := by
  have hclosed := (closeDevice_closed (reach_bookkept h) hm hf hn).1
  exact ⟨hclosed, fun cs w' hs => (steps_mute hs hclosed.subscriptionMap).2⟩

theorem reach_closed_reopened :
    (closeDevice closing (Call.run {} reopened)).Closed ∧ ∀ cs w',
      (calls Nat).Steps (fun _ c => c.Dormant) (closeDevice closing (Call.run {} reopened)) cs w' →
        Extends (fun e => e.isValue = false)
          (closeDevice closing (Call.run {} reopened)).history w'.history :=
  reach_closed (reach_run reopened (.init World.fresh_default) (by decide)) (by decide)
    (by decide) (by decide)

/-! ## Opening again -/

/-- The items are being registered in a new subscription, before the device counts as open. -/
structure World.Preparing (w : World V) : Prop where
  bookkept : Bookkept True w
  opened : w.opened = false
  asyncReadActive : w.asyncReadActive = false
  subscriptionActive : w.subscriptionActive = true
  opcuaThread : w.opcuaThread = none
  isConnected : w.isConnected = true
  fault : w.fault = none

/-- From `w` to `w'` the items at the positions `is` become monitored, and those that were so
stay so. -/
structure Prepares (is : List Nat) (w w' : World V) : Prop where
  preparing : w'.Preparing
  kept : w'.subscriptionNeedsToBeRemoved = w.subscriptionNeedsToBeRemoved
  items : ∀ (i : Nat) item', w'.items.elems[i]? = some item' →
    ∃ item, w.items.elems[i]? = some item ∧
      (i ∈ is ∨ item.isMonitored = true → item'.isMonitored = true)

theorem Prepares.trans {is js : List Nat} (h : Prepares is w w') (h' : Prepares js w' w'') :
    Prepares (is ++ js) w w'' := by
  refine ⟨h'.preparing, h'.kept.trans h.kept, fun i item'' hi => ?_⟩
  obtain ⟨item', hi', hmon'⟩ := h'.items i item'' hi
  obtain ⟨item, hitem, hmon⟩ := h.items i item' hi'
  refine ⟨item, hitem, fun hor => hmon' ?_⟩
  rcases hor with hmem | hitem
  · rcases List.mem_append.mp hmem with hm | hm
    · exact .inr (hmon (.inl hm))
    · exact .inl hm
  · exact .inr (hmon (.inr hitem))

/-- A calm callback is no loss. -/
theorem Callback.isLoss_of_isCalm {c : Callback V} (hc : c.isCalm = true) : c.isLoss = false := by
  cases c <;> simp_all [isCalm, isLoss]

/-- While asynchronous reading is not active, the loop body registers its item. -/
theorem World.Preparing.addMonitoredItem (h : w.Preparing)
    {reply : Reply V MonitoredItemCreateResult} (i : Nat)
    (hgood : reply.result.statusCode.isGood = true)
    (hcalm : ∀ c ∈ reply.callbacks, c.isCalm = true)
    (hL : LibraryContract (addMonitoredItem reply i w).history) :
    Prepares [i] w (addMonitoredItem reply i w) := by
  have hbook := h.bookkept.addMonitoredItem reply i hL
  have hact : activateIfAsync i w = w := if_neg (by simp [h.asyncReadActive])
  rcases addMonitoredItem_cases w reply i with
    ⟨he, hmon⟩ | ⟨-, item, hmem, hnone⟩ | ⟨item, first, hitem, -, -, he⟩
  · rw [hact] at he hmon
    rw [he]
    refine ⟨h, rfl, fun j item' hj => ⟨item', hj, ?_⟩⟩
    rintro (hmem | hm)
    · obtain rfl := List.mem_singleton.mp hmem
      exact hmon item' hj
    · exact hm
  · rw [hact] at hmem
    simpa [hnone] using h.bookkept.1.items.accessors item hmem
  · rw [hact] at he hitem
    have hc : Coherent (w.record
        (.createDataChange (monitoringRequest w item first) reply.result)) :=
      ⟨(h.bookkept.2 trivial).sound, (h.bookkept.2 trivial).complete⟩
    have ha := runCallbacks_aside hc h.opened reply.callbacks
    have hconn := runCallbacks_isConnected hc h.opened
      (fun c hmem => Callback.isLoss_of_isCalm (hcalm c hmem)) h.isConnected
    have hcall := runCallbacks_calm hcalm (w.record
      (.createDataChange (monitoringRequest w item first) reply.result))
    unfold libraryCall monitoringAnswered at he
    rw [if_pos hgood] at he
    rw [he] at hbook ⊢
    generalize runCallbacks reply.callbacks (w.record
      (.createDataChange (monitoringRequest w item first) reply.result)) = w₁
      at ha hconn hcall hbook ⊢
    refine ⟨⟨hbook, ha.opened.trans h.opened, ha.asyncReadActive.trans h.asyncReadActive,
      (congrArg Lifecycle.subscriptionActive hcall.lifecycle).trans h.subscriptionActive,
      ha.frame.opcuaThread.trans h.opcuaThread, hconn, ha.fault.trans h.fault⟩, ha.kept, ?_⟩
    intro j item' hj
    rw [SlotDeque.elems_modify, List.getElem?_modify] at hj
    obtain ⟨item₁, hitem₁, rfl⟩ := Option.map_eq_some_iff.mp hj
    obtain ⟨item₀, hitem₀, hcalm₀⟩ := SlotDeque.exists_getElem?_of_map_eq hcall.items hitem₁
    refine ⟨item₀, hitem₀, fun hor => ?_⟩
    by_cases hij : i = j
    · rw [if_pos hij]
      rfl
    · rw [if_neg hij]
      have hm := hor.resolve_left fun hmem => hij (List.mem_singleton.mp hmem).symm
      exact (MonitorItem.calm_inj hcalm₀).2.trans hm

theorem World.Preparing.addMonitoredItems (h : w.Preparing)
    {replies : Nat → Reply V MonitoredItemCreateResult}
    (hgood : ∀ i, (replies i).result.statusCode.isGood = true)
    (hcalm : ∀ i, ∀ c ∈ (replies i).callbacks, c.isCalm = true)
    (hL : LibraryContract (addMonitoredItems replies w).history) :
    Prepares (List.range w.items.size) w (addMonitoredItems replies w) := by
  unfold OpcUaBackend.addMonitoredItems at hL ⊢
  generalize List.range w.items.size = is at hL ⊢
  induction is generalizing w with
  | nil => exact ⟨h, rfl, fun i item' hi => ⟨item', hi, fun hor => hor.resolve_left (by simp)⟩⟩
  | cons i is ih =>
    have hstep := h.addMonitoredItem i (hgood i) (hcalm i)
      (hL.of_suffix (foldl_addMonitoredItem_history _ _ is).suffix)
    exact hstep.trans (ih hstep.preparing hL)

/-- Removing a left over subscription keeps the connection. -/
theorem World.Halted.cleanUpSubscription (h : w.Halted) (hconn : w.isConnected = true)
    {reply : Reply V UA_StatusCode} (hreply : ∀ c ∈ reply.callbacks, c.isLoss = false) :
    (cleanUpSubscription reply w).Halted ∧ (cleanUpSubscription reply w).loop = w.loop ∧
      (cleanUpSubscription reply w).isConnected = true := by
  unfold OpcUaBackend.cleanUpSubscription
  split
  · obtain ⟨hhalted, hloop⟩ := h.removeSubscription reply
    have hrecord := h.bookkept.record (e := .subscriptionsDelete w.subscriptionID reply.result)
      ⟨rfl, rfl⟩
    exact ⟨hhalted, hloop, runCallbacks_isConnected (hrecord.2 trivial) h.opened hreply hconn⟩
  · exact ⟨h, rfl, hconn⟩

/-- On an open connection the new subscription is created. -/
theorem World.Halted.createSubscription (h : w.Halted) (ht : w.opcuaThread = none)
    (hconn : w.isConnected = true) {r : Replies V} (hr : r.Steady) :
    ∃ w', createSubscription r w = .returned w' ∧ w'.Preparing ∧
      w'.subscriptionNeedsToBeRemoved = w.subscriptionNeedsToBeRemoved := by
  obtain ⟨h₁, hloop, hconn₁⟩ := h.cleanUpSubscription hconn hr.subscriptionsDelete
  obtain ⟨-, hflag, hthread⟩ : _ ∧ (OpcUaBackend.cleanUpSubscription r.subscriptionsDelete
      w).subscriptionNeedsToBeRemoved = w.subscriptionNeedsToBeRemoved ∧
      (OpcUaBackend.cleanUpSubscription r.subscriptionsDelete w).opcuaThread = w.opcuaThread := by
    simpa [Lifecycle.loop] using hloop
  have hclean : ∀ w', OpcUaBackend.createSubscription r w = .returned w' → Bookkept True w' ∧
      w'.subscriptionActive = true ∧ w'.subscriptionMap.entries = [] :=
    fun w' => createSubscription_clean h.bookkept (.inr h.unmonitored)
  unfold OpcUaBackend.createSubscription requestSubscription at hclean ⊢
  generalize OpcUaBackend.cleanUpSubscription r.subscriptionsDelete w = w₁
    at h₁ hconn₁ hflag hthread hclean ⊢
  have hc : Coherent (w₁.record
      (.subscriptionsCreate w₁.publishingInterval r.subscriptionsCreate.result)) :=
    ⟨(h₁.bookkept.2 trivial).sound, (h₁.bookkept.2 trivial).complete⟩
  have ha := runCallbacks_aside hc h₁.opened r.subscriptionsCreate.callbacks
  have hconn₂ := runCallbacks_isConnected hc h₁.opened
    (fun c hmem => Callback.isLoss_of_isCalm (hr.subscriptionsCreate c hmem)) hconn₁
  simp only [if_pos hr.created] at hclean ⊢
  obtain ⟨hbook, -, -⟩ := hclean _ rfl
  refine ⟨_, rfl, ⟨hbook, ha.opened.trans h₁.opened, ha.asyncReadActive.trans h₁.asyncReadActive,
    rfl, ?_, hconn₂, ha.fault.trans h₁.fault⟩, ha.kept.trans hflag⟩
  exact (ha.frame.opcuaThread.trans hthread).trans ht

/-- The connection comes up: the last state that is reported is that of an open channel with an
activated session. -/
structure Replies.Connects (r : Replies V) : Prop where
  connect : r.connect.result.isGood = true
  activated : lastConnection r.connect.callbacks = some (.open, .activated)

/-- The connection goes down: the last state that is reported is another one. -/
def Replies.Disconnects (r : Replies V) : Prop :=
  ∃ states, lastConnection r.disconnect.callbacks = some states ∧ states ≠ (.open, .activated)

/-- What opening a closed device leaves: every item is monitored, in a new subscription. -/
structure World.Reopened (w : World V) : Prop where
  bookkept : Bookkept True w
  isFunctional : w.isFunctional = true
  subscriptionActive : w.subscriptionActive = true
  opcuaThread : w.opcuaThread = none
  monitored : ∀ item ∈ w.items.elems, item.isMonitored = true
  fault : w.fault = none

theorem World.Closed.openDevice (h : w.Closed) (hconn : w.isConnected = false)
    (stop reset : Replies V) {r : Replies V} (hg : r.Good) (hs : r.Steady) (hc : r.Connects)
    (hL : LibraryContract (openDevice stop reset r w).world.history) :
    ∃ w', openDevice stop reset r w = .returned w' ∧ w'.Reopened ∧
      w'.subscriptionNeedsToBeRemoved = w.subscriptionNeedsToBeRemoved := by
  have hstop : stopClientThread stop.clientSteps w = w := by
    unfold stopClientThread
    rw [h.opcuaThread]
  obtain ⟨h₁, hthread, hflag, -⟩ := resetClient_halted (r := reset) h.bookkept h.opened
    h.subscriptionManager h.fault (by simp [h.opcuaThread])
  have hkept : (resetClient reset w).subscriptionNeedsToBeRemoved
      = w.subscriptionNeedsToBeRemoved := by
    rw [Bool.eq_iff_iff, hflag]
    simp [Lifecycle.Recovers, Lifecycle.Past, h.opcuaThread]
  unfold OpcUaBackend.openDevice OpcUaBackend.connect at hL ⊢
  simp only [hconn, Bool.false_eq_true, if_false, if_pos h.subscriptionManager, hstop,
    if_pos hc.connect] at hL ⊢
  generalize resetClient reset w = w₁ at h₁ hthread hkept hL ⊢
  have ha := runCallbacks_aside (h₁.bookkept.2 trivial) h₁.opened r.connect.callbacks
  have hconn₂ : (runCallbacks r.connect.callbacks w₁).isConnected = true := by
    apply World.isConnected_iff.mpr
    rw [runCallbacks_connection (h₁.bookkept.2 trivial) h₁.opened, hc.activated]
    rfl
  have h₂ := h₁.aside ha
  have hthread₂ := ha.frame.opcuaThread.trans hthread
  have hkept₂ := ha.kept.trans hkept
  generalize runCallbacks r.connect.callbacks w₁ = w₂ at h₂ hconn₂ hthread₂ hkept₂ hL ⊢
  obtain ⟨w₃, hcreate, h₃, hkept₃⟩ := h₂.createSubscription hthread₂ hconn₂ hs
  simp only [if_pos h₂.subscriptionManager, prepare, hcreate, Result.andThen] at hL ⊢
  have hLadd : LibraryContract (addMonitoredItems r.createDataChange w₃).history := by
    split at hL <;> exact hL
  have h₄ := h₃.addMonitoredItems hg.createDataChange hg.calm hLadd
  rw [if_pos h₄.preparing.isConnected]
  refine ⟨_, rfl, ⟨?_, rfl, h₄.preparing.subscriptionActive, h₄.preparing.opcuaThread, ?_,
    h₄.preparing.fault⟩, (h₄.kept.trans hkept₃).trans hkept₂⟩
  · exact h₄.preparing.bookkept.of_flags rfl rfl rfl rfl id
  · intro item' hmem
    obtain ⟨i, hi⟩ := List.mem_iff_getElem?.mp hmem
    obtain ⟨item, hitem, hmon⟩ := h₄.items i item' hi
    exact hmon (.inl (List.mem_range.mpr (List.getElem?_eq_some_iff.mp hitem).1))

/-! ## Closing, opening and activating -/

/-- Activating on the opened device only activates the items, and starts the thread. -/
theorem World.Reopened.activateAsyncRead (h : w.Reopened) (r : Replies V) :
    activateAsyncRead r w = start (activateItems
      { w with subscriptionManager := true, asyncReadActive := true }) := by
  have hmap : ¬ (0 < w.items.size ∧ w.subscriptionMap.entries = []) := by
    rintro ⟨hsize, hnil⟩
    obtain ⟨item, hmem⟩ := List.exists_mem_of_length_pos hsize
    obtain ⟨i, hi⟩ := List.mem_iff_getElem?.mp hmem
    have hl := (h.bookkept.2 trivial).complete i item hi (h.monitored item hmem)
    exact absurd (hnil ▸ AList.mem_lookup_iff.mp hl) List.not_mem_nil
  have hact : activate r { w with subscriptionManager := true }
      = .returned (activateItems { w with subscriptionManager := true, asyncReadActive := true }) := by
    rw [activate, ensureSubscription_active r (by exact h.subscriptionActive)]
    simp only [Result.andThen, activateSubscribed]
    rw [if_neg hmap]
  have hnone : (activateItems { w with
      subscriptionManager := true, asyncReadActive := true }).opcuaThread.isNone = true := by
    simp [activateItems, h.opcuaThread]
  rw [OpcUaBackend.activateAsyncRead, if_pos h.isFunctional, hact]
  exact if_pos hnone

theorem World.Reopened.activated (h : w.Reopened) (r : Replies V) :
    (OpcUaBackend.activateAsyncRead r w).fault = none ∧
      (OpcUaBackend.activateAsyncRead r w).isFunctional = true ∧
      Covered (OpcUaBackend.activateAsyncRead r w) ∧
      ((OpcUaBackend.activateAsyncRead r w).Live ↔ w.subscriptionNeedsToBeRemoved = false) := by
  have hset : Bookkept True { w with subscriptionManager := true, asyncReadActive := true } :=
    h.bookkept.of_flags rfl rfl rfl rfl id
  have hcov := hset.activateItems_covered h.subscriptionActive h.monitored
  have hactive : (activateItems { w with
      subscriptionManager := true, asyncReadActive := true }).subscriptionActive = true :=
    h.subscriptionActive
  have hthread : ¬ (activateItems { w with
      subscriptionManager := true, asyncReadActive := true }).opcuaThread.isSome = true := by
    simp [activateItems, h.opcuaThread]
  rw [h.activateAsyncRead, start, if_pos hactive]
  simp only [if_neg hthread]
  refine ⟨h.fault, h.isFunctional, hcov, ?_⟩
  constructor
  · exact fun hlive => hlive.kept
  · exact fun hkept => ⟨⟨.loopHead, rfl, .inl rfl⟩, rfl, h.subscriptionActive, hkept⟩

/-- The device is closed, opened again, and asynchronous reading is activated. -/
def reopening (close stop reset connect activate : Replies V) : List (Call V) :=
  [.closeDevice close, .openDevice stop reset connect, .activateAsyncRead activate]

/-- **Recovery.** When the device is closed in any state of a run that keeps the routing, is opened
again and asynchronous reading is activated, with answers that let the thread end, break and
make the connection and register the items, then the device is functional and every item is
covered. The loop stays live exactly when no removal was left to a thread past its clean-up. -/
theorem reach_reopened {close stop reset connect activate : Replies V}
    (h : (calls V).Reach Call.KeepsRouting w) (hm : w.subscriptionManager = true)
    (hf : w.fault = none) (hn : 4 ≤ close.clientSteps.length) (hd : close.Disconnects)
    (hg : connect.Good) (hs : connect.Steady) (hc : connect.Connects)
    (hL : LibraryContract (Call.run w (reopening close stop reset connect activate)).history) :
    (Call.run w (reopening close stop reset connect activate)).fault = none ∧
      (Call.run w (reopening close stop reset connect activate)).isFunctional = true ∧
      Covered (Call.run w (reopening close stop reset connect activate)) ∧
      ((∀ cs w', (calls V).Steps (fun _ c => c.Undisturbed)
          (Call.run w (reopening close stop reset connect activate)) cs w' → w'.Live) ↔
        w.Recovers) := by
  obtain ⟨hclosed, hflag, hconn⟩ := closeDevice_closed (reach_bookkept h) hm hf hn
  have hrun : Call.run w (reopening close stop reset connect activate)
      = activateAsyncRead activate (openDevice stop reset connect (closeDevice close w)).world :=
    rfl
  rw [hrun] at hL ⊢
  obtain ⟨states, hstates, hne⟩ := hd
  have hlost : (closeDevice close w).isConnected = false := by
    rw [← Bool.not_eq_true, World.isConnected_iff, hconn states hstates]
    exact hne
  obtain ⟨w', hopen, hreopened, hkept⟩ := hclosed.openDevice hlost stop reset
    hg hs hc (hL.of_suffix (activateAsyncRead_history _ activate).suffix)
  rw [hopen, Result.world]
  obtain ⟨hfault, hfun, hcov, hlive⟩ := hreopened.activated activate
  refine ⟨hfault, hfun, hcov, ?_⟩
  have hiff : (activateAsyncRead activate w').Live ↔ w.Recovers := by
    rw [hlive, hkept, ← Bool.not_eq_true, hflag, not_not]
  rw [← hiff]
  exact ⟨fun hall => hall [] _ (.nil _), fun hl cs w'' hsteps => hl.steps hsteps⟩

/-- A register is read asynchronously. -/
def activated : List (Call Nat) := opened ++ [.activateAsyncRead {}]

theorem reach_reopened_activated :
    (Call.run (Call.run {} activated) (reopening closing {} {} connecting {})).fault = none ∧
      (Call.run (Call.run {} activated) (reopening closing {} {} connecting {})).isFunctional
        = true ∧
      Covered (Call.run (Call.run {} activated) (reopening closing {} {} connecting {})) ∧
      ((∀ cs w', (calls Nat).Steps (fun _ c => c.Undisturbed)
          (Call.run (Call.run {} activated) (reopening closing {} {} connecting {})) cs w' →
            w'.Live) ↔
        (Call.run {} activated).Recovers) :=
  reach_reopened (reach_run activated (.init World.fresh_default) (by decide)) (by decide)
    (by decide) (by decide) ⟨_, rfl, by decide⟩ ⟨rfl, rfl, fun _ => rfl, by simp [connecting]⟩
    ⟨by simp [connecting], rfl, by simp [connecting], by simp [connecting]⟩ ⟨rfl, rfl⟩ (by decide)

-- An iteration fails and the thread ends: the removal that the closing records is left behind.
example : ¬ (Call.run (Call.run {} activated) ([.clientStep { result := .good } { result := .good },
    .clientStep { result := ⟨1, "Bad"⟩ } { result := .good }] ++
      List.replicate 2 iteration)).Recovers := by decide

end OpcUaBackend
