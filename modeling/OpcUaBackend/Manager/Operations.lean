import OpcUaBackend.Manager.State

/-!
# The functions of the subscription manager

One definition for each function of `OPCUASubscriptionManager`, under its name, on the whole
state. A call of the library is given its answer: the result, and the callbacks the library
runs inside the call while the calling thread holds `client_lock`. Loops over the items are
written over positions, in the order of the items.

## Main definitions

* `handleException`, `deactivate`, `responseHandler`, `runCallback`: what callbacks do
* `createSubscription`, `addMonitoredItems`, `activate`, `subscribe`, `unsubscribe`
* `clientStep`, `stopClientThread`: the client thread, and the join that waits for its end
-/

namespace OpcUaBackend

open Foundation

variable {V : Type}

/-! ## What callbacks do -/

/-- The test of `handleException`: the item is active and has no exception yet. -/
def MonitorItem.raises (item : MonitorItem) : Bool := item.active && !item.hasException

/-- Mark the item when it passes the test of `handleException`. -/
def MonitorItem.raise (item : MonitorItem) : MonitorItem :=
  if item.raises then { item with hasException := true } else item

/-- `handleException`: every active item without an exception is marked, and the message goes
to its accessors. -/
def handleException (message : String) (w : World V) : World V :=
  -- the exception is made anew for each item, with the same message
  let raising := w.items.elems.filter MonitorItem.raises
  let w' := { w with items := w.items.map MonitorItem.raise }
  w'.pushAll (.exception message) (raising.flatMap (·.accessors))

/-- The loop of `deactivate` over `subscriptionMap`. -/
def clearActive (w : World V) : World V :=
  let targets := w.subscriptionMap.entries.map (·.2)
  -- the addresses in the map are followed without a test
  let w := if targets.all fun p => (w.items.get? p).isSome then w else w.fail .danglingPointer
  { w with
    items := w.items.mapSlots fun p item =>
      if p ∈ targets then { item with active := false } else item }

/-- `deactivate`. Without a thread object the subscription is removed on the spot, which takes
`client_lock`: `removal` says what that does. -/
def deactivate (removal : World V → World V) (w : World V) : World V :=
  let w := clearActive w
  let w := { w with run := false }
  let w :=
    if w.subscriptionActive then
      let w := { w with subscriptionActive := false }
      -- the callbacks run in the client thread with `client_lock` held, so the thread is asked to
      -- remove the subscription when it has left its loop
      if w.opcuaThread.isSome then { w with subscriptionNeedsToBeRemoved := true } else removal w
    else w
  { w with asyncReadActive := false }

def deactivateAllAndPushException (removal : World V → World V)
    (message : String := "Exception reported by another accessor.") (w : World V) : World V :=
  deactivate removal (handleException message w)

/-- `responseHandler`, called with the id of a monitored item. An unknown id is logged. -/
def responseHandler (monId : Nat) (value : DataValue V) (w : World V) : World V :=
  match w.subscriptionMap.lookup monId with
  | none => w
  | some p =>
    match w.items.get? p with
    -- the map has the address of an item that was erased
    | none => w.fail .danglingPointer
    | some item =>
      if item.active then
        let w' := { w with
          items := w.items.mapSlots fun q item =>
            if q = p then { item with hasException := false } else item }
        w'.pushAll (.data value) item.accessors
      -- the value for an inactive item is dropped
      else w

/-- `setInactive`, from `deleteSubscriptionCallback`. -/
def setInactive (w : World V) : World V :=
  { w with subscriptionActive := false, subscriptionID := 0 }

/-- `OpcUABackend::stateCallback`. -/
def stateCallback (channelState : UA_SecureChannelState) (sessionState : UA_SessionState)
    (w : World V) : World V :=
  let w := { w with channelState := channelState, sessionState := sessionState }
  -- a subscription that is removed here would take the lock that this thread holds
  if w.opened && !w.isConnected && w.subscriptionManager && w.run then
    deactivateAllAndPushException (·.fail .clientLockDeadlock)
      "Client session is not open any more." w
  else w

/-- `OpcUABackend::inactivityCallback`. -/
def inactivityCallback (subId : Nat) (w : World V) : World V :=
  if w.isFunctional && w.isConnected && w.subscriptionManager && w.run
      && w.subscriptionID == subId then
    let w := deactivateAllAndPushException (·.fail .clientLockDeadlock)
      ("No activity for subscriptions: " ++ toString subId) w
    { w with sessionState := .closed }
  else w

/-- One callback, run while the calling thread holds `client_lock`. -/
def runCallback (w : World V) : Callback V → World V
  | .state channelState sessionState => stateCallback channelState sessionState w
  | .inactivity subId => inactivityCallback subId w
  | .deleteSubscription _ => setInactive w
  | .dataChange monId value => responseHandler monId value w

def runCallbacks (callbacks : List (Callback V)) (w : World V) : World V :=
  callbacks.foldl runCallback w

/-- A call of the library: it is recorded, and the callbacks run inside it. -/
def libraryCall (e : Event V) (callbacks : List (Callback V)) (w : World V) : World V :=
  runCallbacks callbacks (w.record e)

/-! ## The subscription -/

/-- The answers of the library to the calls of one function, and what `front()` of a queue
yields for an exception (nothing when it is thrown on). -/
structure Replies (V : Type) where
  subscriptionsDelete : Reply V UA_StatusCode := { result := .good }
  subscriptionsCreate : Reply V CreateSubscriptionResponse :=
    { result := { serviceResult := .good, subscriptionId := 1, revisedPublishingInterval := 500 } }
  createDataChange : Nat → Reply V MonitoredItemCreateResult :=
    fun i => { result := { statusCode := .good, monitoredItemId := i + 1 } }
  deleteMonitoredItem : Reply V UA_StatusCode := { result := .good }
  connect : Reply V UA_StatusCode := { result := .good }
  disconnect : Reply V UA_StatusCode := { result := .good }
  clientSteps : List (Reply V UA_StatusCode × Reply V UA_StatusCode) := []
  frontOfException : Option (DataValue V) := none

def resetMonitoredItems (w : World V) : World V :=
  { w with
    items := w.items.map fun item => { item with isMonitored := false }
    subscriptionMap := ∅ }

def removeSubscription (reply : Reply V UA_StatusCode) (w : World V) : World V :=
  let w := libraryCall (.subscriptionsDelete w.subscriptionID reply.result) reply.callbacks w
  -- the id is reset even if the server refuses to delete the subscription
  resetMonitoredItems { w with subscriptionID := 0 }

/-- The clean-up of a left over subscription at the start of `createSubscription`. -/
def cleanUpSubscription (reply : Reply V UA_StatusCode) (w : World V) : World V :=
  if w.subscriptionID ≠ 0 then removeSubscription reply w else w

/-- The request of `createSubscription` for a new subscription. -/
def requestSubscription (reply : Reply V CreateSubscriptionResponse) (w : World V) : Result V :=
  let response := reply.result
  let w := libraryCall (.subscriptionsCreate w.publishingInterval response) reply.callbacks w
  -- the callbacks have run inside the request, before its answer is looked at
  if response.serviceResult.isGood then
    .returned { w with
      subscriptionID := response.subscriptionId
      publishingInterval := response.revisedPublishingInterval
      subscriptionActive := true }
  else .threw "Failed to set up subscription." w

def createSubscription (r : Replies V) (w : World V) : Result V :=
  requestSubscription r.subscriptionsCreate (cleanUpSubscription r.subscriptionsDelete w)

/-- The creation of a subscription where none is active. -/
def ensureSubscription (r : Replies V) (w : World V) : Result V :=
  if w.subscriptionActive then .returned w else createSubscription r w

/-- Set `active` of the `i`-th item. -/
def activateItem (i : Nat) (w : World V) : World V :=
  match w.items.elems[i]? with
  | none => w
  | some item =>
    World.record (.activated item.browseName item.hasException item.active)
      { w with items := w.items.modify i fun item => { item with active := true } }

/-- The request that registers an item of the current subscription. -/
def monitoringRequest (w : World V) (item : MonitorItem) (first : Accessor) :
    MonitoredItemCreateRequest where
  subscriptionId := w.subscriptionID
  node := item.node
  indexRange := (w.accessors first).indexRange
  samplingInterval := w.publishingInterval
  browseName := item.browseName

/-- Mark an item as monitored under an id. -/
def MonitorItem.monitor (id : Nat) (item : MonitorItem) : MonitorItem :=
  { item with id := id, isMonitored := true }

/-- What an answered registration request does to its item. -/
def monitoringAnswered (i : Nat) (browseName : String) (result : MonitoredItemCreateResult)
    (w : World V) : World V :=
  if result.statusCode.isGood then
    { w with
      items := w.items.modify i (MonitorItem.monitor result.monitoredItemId)
      subscriptionMap := w.subscriptionMap.insert result.monitoredItemId (w.items.slot i) }
  else
    -- the item stays without an id, and the exception is one of all items
    handleException ("Failed to add monitored item for node: " ++ browseName ++ " Error: "
      ++ result.statusCode.name) w

/-- The start of the loop body of `addMonitoredItems`: activate the item when asynchronous reading
is active. -/
def activateIfAsync (i : Nat) (w : World V) : World V :=
  if w.asyncReadActive then activateItem i w else w

/-- The body of the loop of `addMonitoredItems`, for the `i`-th item. -/
def addMonitoredItem (reply : Reply V MonitoredItemCreateResult) (i : Nat) (w : World V) :
    World V :=
  let w := activateIfAsync i w
  match w.items.elems[i]? with
  | none => w
  | some item =>
    if item.isMonitored then w
    else
      match item.accessors.head? with
      -- `accessors.at(0)` of an item without accessors
      | none => w.fail .noAccessor
      | some first =>
        let w := libraryCall (.createDataChange (monitoringRequest w item first) reply.result)
          reply.callbacks w
        monitoringAnswered i item.browseName reply.result w

def addMonitoredItems (replies : Nat → Reply V MonitoredItemCreateResult) (w : World V) :
    World V :=
  (List.range w.items.size).foldl (fun w i => addMonitoredItem (replies i) i w) w

def prepare (r : Replies V) (w : World V) : Result V :=
  (createSubscription r w).andThen fun w => .returned (addMonitoredItems r.createDataChange w)

/-- The loop of `activate` over all items. -/
def activateItems (w : World V) : World V :=
  let activated := w.items.elems.map fun item =>
    .activated item.browseName item.hasException item.active
  { w with
    items := w.items.map fun item => { item with active := true }
    history := activated.reverse ++ w.history }

/-- The part of `activate` after the subscription is there. -/
def activateSubscribed (r : Replies V) (w : World V) : World V :=
  let w := { w with asyncReadActive := true }
  -- items that were refused are not tried again while the map has other ones
  if 0 < w.items.size ∧ w.subscriptionMap.entries = [] then
    addMonitoredItems r.createDataChange w
  else activateItems w

def activate (r : Replies V) (w : World V) : Result V :=
  (ensureSubscription r w).andThen fun w => .returned (activateSubscribed r w)

/-! ## The client thread -/

/-- `start`. -/
def start (w : World V) : World V :=
  if w.subscriptionActive then
    -- a thread that was not joined must not be assigned to
    let w := if w.opcuaThread.isSome then w.fail .terminate else w
    { w with run := true, opcuaThread := some .loopHead }
  else { w with run := false }

/-- One step of `runClient`: the loop test, an iteration under `client_lock`, the clean-up
after the loop, and the end. -/
def clientStep (iterate removal : Reply V UA_StatusCode) (w : World V) : World V :=
  match w.opcuaThread with
  | some .loopHead => { w with opcuaThread := some (if w.run then .iterating else .cleanUp) }
  | some .iterating =>
    -- `_subscriptionNeedsToBeRemoved` is tested first, whatever the iteration returned
    let w := runCallbacks iterate.callbacks w
    if w.subscriptionNeedsToBeRemoved then { w with opcuaThread := some .cleanUp }
    else if iterate.result.isGood then { w with opcuaThread := some .loopHead }
    else { w with opcuaThread := some .cleanUp }
  | some .cleanUp =>
    if w.subscriptionNeedsToBeRemoved then
      let w := removeSubscription removal w
      { w with subscriptionNeedsToBeRemoved := false, opcuaThread := some .finishing }
    else { w with opcuaThread := some .finishing }
  -- `_run` is cleared outside of any lock
  | some .finishing => { w with run := false, opcuaThread := some .ended }
  | some .ended => w
  | none => w

/-- `stopClientThread`: the join lets the client thread go on, with the given answers, until
it has ended. -/
def stopClientThread : List (Reply V UA_StatusCode × Reply V UA_StatusCode) → World V → World V
  | steps, w =>
    match w.opcuaThread with
    | none => w
    | some .ended => { w with opcuaThread := none }
    | some _ =>
      match steps with
      | [] => w.fail .joinBlocked
      | (iterate, removal) :: steps => stopClientThread steps (clientStep iterate removal w)

/-! ## Accessors -/

/-- An accessor takes the oldest element from its queue; a value becomes its data. -/
def popNotification (accessor : Accessor) (w : World V) : World V :=
  let s := w.accessors accessor
  let data := match s.notifications.front? with
    | some (.data value) => if value.hasValue then value else s.data
    -- an exception is thrown to the reader, and an empty value is no new data
    | _ => s.data
  let s' := { s with notifications := s.notifications.pop, data := data }
  { w with accessors := Function.update w.accessors accessor s' }

/-- A transfer of the accessor's own: `doReadTransferSynchronously` replaces its data, and
`doWriteTransfer` writes the elements into it before it is sent. -/
def ownTransfer (accessor : Accessor) (data : DataValue V) (w : World V) : World V :=
  let s' := { w.accessors accessor with data := data }
  World.record (.transferred accessor)
    { w with accessors := Function.update w.accessors accessor s' }

/-- The initial value of an accessor added to an active item, taken from the accessor `tmp`
that was added last before it. -/
def pushInitialValue (frontOfException : Option (DataValue V)) (tmp accessor : Accessor)
    (w : World V) : Result V :=
  let pushValue (data : DataValue V) : Result V :=
    if data.hasValue then .returned (w.push (.data data) accessor) else .returned w
  match (w.accessors tmp).notifications.front? with
  | none => pushValue (w.accessors tmp).data.copy
  | some (.data value) => pushValue value.copy
  | some (.exception message) =>
    match frontOfException with
    -- the mutex was locked by hand, and is not unlocked on the way out
    | none => .threw message (w.fail .mutexLeftLocked)
    | some value => pushValue value.copy

def subscribe (r : Replies V) (browseName : String) (node : UA_NodeId) (accessor : Accessor)
    (w : World V) : Result V :=
  let w := w.record (.subscribed accessor browseName)
  match w.find? browseName with
  | none =>
    -- the first accessor of a node brings the item with it
    let item : MonitorItem := { node := node, accessors := [accessor], browseName := browseName }
    let w := { w with items := w.items.pushBack item }
    if w.asyncReadActive then
      (ensureSubscription r w).andThen fun w =>
        .returned (addMonitoredItems r.createDataChange w)
    else .returned w
  | some (i, item) =>
    match item.accessors.getLast? with
    | none => .returned (w.fail .noAccessor)
    | some tmp =>
      let w := { w with
        items := w.items.modify i fun item =>
          { item with accessors := item.accessors ++ [accessor] } }
      if item.active then pushInitialValue r.frontOfException tmp accessor w else .returned w

/-- The part of `unsubscribe` after its critical section, when an item with a monitored item
id was removed. -/
def unsubscribeItem (r : Replies V) (browseName : String) (id : Nat) (w : World V) : World V :=
  let w := libraryCall
    (.deleteMonitoredItem w.subscriptionID id browseName r.deleteMonitoredItem.result)
    r.deleteMonitoredItem.callbacks w
  -- the subscription goes with the last item, and so does the client thread
  if w.items.size = 0 then
    let w := removeSubscription r.subscriptionsDelete w
    stopClientThread r.clientSteps { w with run := false }
  else w

def unsubscribe (r : Replies V) (browseName : String) (accessor : Accessor) (w : World V) :
    World V :=
  match w.find? browseName with
  | none => w
  | some (i, item) =>
    if 1 < item.accessors.length then
      if accessor ∈ item.accessors then
        { w with
          items := w.items.modify i fun item =>
            { item with accessors := item.accessors.erase accessor } }
      -- `std::find` yields the end for an accessor that is not in the list
      else w.fail .eraseAtEnd
    else
      let w := { w with
        subscriptionMap := w.subscriptionMap.erase item.id
        items := w.items.erase i }
      -- the id is set once the server has accepted the item
      if item.id ≠ 0 ∧ w.isConnected then unsubscribeItem r browseName item.id w else w

/-- `setExternalError`. The accessor that reports is not an argument of the source's function;
it is recorded, with the flag the item had. -/
def setExternalError (browseName : String) (reporter : Accessor) (w : World V) : World V :=
  match w.find? browseName with
  | none => w
  | some (i, item) =>
    World.record (.reported reporter browseName item.hasException)
      { w with items := w.items.modify i fun item => { item with hasException := true } }

end OpcUaBackend
