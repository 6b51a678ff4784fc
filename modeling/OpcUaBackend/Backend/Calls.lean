import OpcUaBackend.Backend.Operations
import OpcUaBackend.Foundation.History
import OpcUaBackend.Foundation.Machine

/-!
# Runs of the backend and of its subscription manager

A call is one function of the backend or of the manager with the library's answers to it, a
step of the client thread, or one of the environment's own steps. The machine `calls` runs
calls in any order against a library that keeps its contract: subscription ids and monitored
item ids are never zero, an item is only registered in a subscription, and the monitored item
ids handed out in one subscription are distinct.

## Main definitions

* `Call`, `Call.exec`: the calls and what they do
* `currentEvents`, `currentSubscription`, `registration`: the history of the current subscription
* `LibraryContract`: what the library promises
* `calls`: the machine
-/

namespace OpcUaBackend

open Foundation

variable {V : Type}

/-! ## The current subscription in the history -/

/-- The event is the creation of a subscription. -/
def Event.opensSubscription : Event V → Bool
  | .subscriptionsCreate _ response => response.serviceResult.isGood
  | _ => false

/-- The request and the result, when the event registers an item. -/
def Event.registers : Event V → Option (MonitoredItemCreateRequest × MonitoredItemCreateResult)
  | .createDataChange request result =>
    if result.statusCode.isGood then some (request, result) else none
  | _ => none

/-- The request and the result, when the event registers an item of the given name. -/
def Event.registersItem (browseName : String) (e : Event V) :
    Option (MonitoredItemCreateRequest × MonitoredItemCreateResult) :=
  e.registers.filter fun q => q.1.browseName == browseName

/-- The events since the latest creation of a subscription. -/
def currentEvents (history : List (Event V)) : List (Event V) :=
  since Event.opensSubscription history

/-- The id of the subscription created last. -/
def currentSubscription (history : List (Event V)) : Option Nat :=
  history.findSome? fun
    | .subscriptionsCreate _ response =>
      if response.serviceResult.isGood then some response.subscriptionId else none
    | _ => none

/-- The latest registration of an item in the subscription created last. -/
def registration (history : List (Event V)) (browseName : String) :
    Option (MonitoredItemCreateRequest × MonitoredItemCreateResult) :=
  (currentEvents history).findSome? (Event.registersItem browseName)

/-- The latest registration of an item in any subscription. -/
def latestRegistration (history : List (Event V)) (browseName : String) :
    Option (MonitoredItemCreateRequest × MonitoredItemCreateResult) :=
  history.findSome? (Event.registersItem browseName)

/-- The monitored item ids handed out in the subscription created last. -/
def issuedIds (history : List (Event V)) : List Nat :=
  ((currentEvents history).filterMap Event.registers).map fun q => q.2.monitoredItemId

/-! ## The library's contract -/

/-- What the library promises of an event that follows the history `past`. -/
def Event.Documented (past : List (Event V)) : Event V → Prop
  | .subscriptionsCreate _ response =>
    response.serviceResult.isGood = true → response.subscriptionId ≠ 0
  | .createDataChange request result =>
    result.statusCode.isGood = true →
      request.subscriptionId ≠ 0 ∧ result.monitoredItemId ≠ 0 ∧
        result.monitoredItemId ∉ issuedIds past
  | _ => True

instance (past : List (Event V)) (e : Event V) : Decidable (e.Documented past) := by
  cases e <;> unfold Event.Documented <;> infer_instance

/-- The library has kept its promises so far. -/
abbrev LibraryContract (history : List (Event V)) : Prop := Along Event.Documented history

/-! ## Calls -/

inductive Call (V : Type)
  -- the backend
  | connect (reset r : Replies V)
  | openDevice (stop reset r : Replies V)
  | closeDevice (r : Replies V)
  | activateAsyncRead (r : Replies V)
  | setException (r : Replies V)
  | constructAccessor (r : Replies V) (browseName : String) (node : UA_NodeId)
      (accessor : Accessor)
  -- the manager
  | subscribe (r : Replies V) (browseName : String) (node : UA_NodeId) (accessor : Accessor)
  | unsubscribe (r : Replies V) (browseName : String) (accessor : Accessor)
  | activate (r : Replies V)
  | deactivate (r : Replies V)
  | deactivateAllAndPushException (r : Replies V) (message : String)
  | setExternalError (browseName : String) (reporter : Accessor)
  | prepare (r : Replies V)
  | createSubscription (r : Replies V)
  | addMonitoredItems (r : Replies V)
  | resetMonitoredItems
  | removeSubscription (r : Replies V)
  | start
  | stopClientThread (r : Replies V)
  -- the client thread
  | clientStep (iterate removal : Reply V UA_StatusCode)
  -- an accessor takes from its queue or makes a transfer of its own, and a library call of such a
  -- transfer runs callbacks
  | popNotification (accessor : Accessor)
  | ownTransfer (accessor : Accessor) (data : DataValue V)
  | callbacks (cs : List (Callback V))

def Call.exec (w : World V) : Call V → Result V
  | connect reset r => OpcUaBackend.connect reset r w
  | openDevice stop reset r => OpcUaBackend.openDevice stop reset r w
  | closeDevice r => .returned (OpcUaBackend.closeDevice r w)
  | activateAsyncRead r => .returned (OpcUaBackend.activateAsyncRead r w)
  | setException r => .returned (OpcUaBackend.setException r w)
  | constructAccessor r browseName node accessor =>
    OpcUaBackend.constructAccessor r browseName node accessor w
  | subscribe r browseName node accessor => OpcUaBackend.subscribe r browseName node accessor w
  | unsubscribe r browseName accessor =>
    .returned (OpcUaBackend.unsubscribe r browseName accessor w)
  | activate r => OpcUaBackend.activate r w
  | deactivate r =>
    .returned (OpcUaBackend.deactivate (OpcUaBackend.removeSubscription r.subscriptionsDelete) w)
  | deactivateAllAndPushException r message =>
    .returned (OpcUaBackend.deactivateAllAndPushException
      (OpcUaBackend.removeSubscription r.subscriptionsDelete) message w)
  | setExternalError browseName reporter =>
    .returned (OpcUaBackend.setExternalError browseName reporter w)
  | prepare r => OpcUaBackend.prepare r w
  | createSubscription r => OpcUaBackend.createSubscription r w
  | addMonitoredItems r => .returned (OpcUaBackend.addMonitoredItems r.createDataChange w)
  | resetMonitoredItems => .returned (OpcUaBackend.resetMonitoredItems w)
  | removeSubscription r =>
    .returned (OpcUaBackend.removeSubscription r.subscriptionsDelete w)
  | start => .returned (OpcUaBackend.start w)
  | stopClientThread r => .returned (OpcUaBackend.stopClientThread r.clientSteps w)
  | clientStep iterate removal => .returned (OpcUaBackend.clientStep iterate removal w)
  | popNotification accessor => .returned (OpcUaBackend.popNotification accessor w)
  | ownTransfer accessor data => .returned (OpcUaBackend.ownTransfer accessor data w)
  | callbacks cs => .returned (runCallbacks cs w)

/-- The manager before its first call; the connection, the flags of the backend and the
accessors' index ranges are arbitrary. -/
structure World.Fresh (w : World V) : Prop where
  lifecycle : w.toLifecycle = {}
  asyncReadActive : w.asyncReadActive = false
  items : w.items = {}
  subscriptionMap : w.subscriptionMap = ∅
  history : w.history = []
  fault : w.fault = none

/-- Calls in any order, against a library that keeps its contract. A state with a fault has no
further calls. -/
def calls (V : Type) : Machine (World V) (Call V) where
  init := World.Fresh
  step w c w' := w.fault = none ∧ w' = (c.exec w).world ∧ LibraryContract w'.history

/-- The state after a list of calls. -/
def Call.run (w : World V) (cs : List (Call V)) : World V :=
  cs.foldl (fun w c => (c.exec w).world) w

/-- The calls can be made one after the other, each in a state where `guard` allows it. -/
def Call.Legal (guard : World V → Call V → Prop) (w : World V) : List (Call V) → Prop
  | [] => True
  | c :: cs => w.fault = none ∧ guard w c ∧ LibraryContract (c.exec w).world.history ∧
      Call.Legal guard (c.exec w).world cs

instance Call.Legal.decidable (guard : World V → Call V → Prop)
    [∀ w c, Decidable (guard w c)] : (w : World V) → (cs : List (Call V)) →
      Decidable (Call.Legal guard w cs)
  | _, [] => .isTrue trivial
  | w, c :: cs =>
    have := Call.Legal.decidable guard (c.exec w).world cs
    inferInstanceAs (Decidable (_ ∧ _ ∧ _ ∧ _))

theorem Call.Legal.steps {guard : World V → Call V → Prop} {w : World V} {cs : List (Call V)}
    (hc : Call.Legal guard w cs) : (calls V).Steps guard w cs (Call.run w cs) := by
  induction cs generalizing w with
  | nil => exact .nil w
  | cons c cs ih =>
    obtain ⟨hfault, hguard, hL, hcs⟩ := hc
    exact .cons hguard ⟨hfault, rfl, hL⟩ (ih hcs)

theorem reach_run {guard : World V → Call V → Prop} {w : World V} (cs : List (Call V))
    (h : (calls V).Reach guard w) (hc : Call.Legal guard w cs) :
    (calls V).Reach guard (Call.run w cs) :=
  h.steps hc.steps

theorem World.fresh_default : World.Fresh ({} : World V) := ⟨rfl, rfl, rfl, rfl, rfl, rfl⟩

end OpcUaBackend
