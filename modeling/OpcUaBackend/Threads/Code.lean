import OpcUaBackend.Accessor.Transfer
import OpcUaBackend.Backend.Calls
import OpcUaBackend.Foundation.Threads

/-!
# The backend and the manager, access by access

The functions of the backend, of the subscription manager and of the transfers as code of
threads: each lock they request or release is an instruction, and each access of the shared
state, each call of the library and each callback inside it an operation. Application threads
make calls; the client thread runs `runClient`. What an operation does to the state is what the
whole functions do there.

Where the source keeps a reference or an iterator to an item while the mutex is released, an
operation looks the item up again, at its position or under its name. With one application
thread that is the same item, since the client thread adds and removes none (`client_keepsItems`),
and there is one join at a time. With several, the source leaves what happens undefined after
another thread has added or removed an item in between, or joins as well; so what is said of
every run of the backend is said of one application thread and the client thread.

Three fields are bookkeeping: the accessors that `deactivateAllAndPushException` gave an
exception since the last activation, whether `deactivate` returned since then, and the
monitored items that are registered for an active item.

## Main definitions

* `Lock`, `LibraryCall`, `Op`: the locks, the calls of the library and the operations
* `Code`: the functions as code
* `Process`, `Op.exec`: the state and what an operation does
* `threads`: the program
-/

namespace OpcUaBackend

open Foundation

variable {V α : Type}

/-! ## Locks and calls of the library -/

/-- `client_lock` of the connection, `mutex` of the manager and `_asyncReadLock` of the
backend. -/
inductive Lock
  | clientLock
  | mutex
  | asyncReadLock
  deriving DecidableEq, Repr

inductive LibraryCall
  | runIterate
  | connect
  | disconnect
  | read
  | write
  | subscriptionsCreate (response : CreateSubscriptionResponse)
  | subscriptionsDelete (ret : UA_StatusCode)
  | createDataChange (request : MonitoredItemCreateRequest) (result : MonitoredItemCreateResult)
  | deleteMonitoredItem (monitoredItemId : Nat) (browseName : String) (ret : UA_StatusCode)
  deriving DecidableEq

/-- What the history keeps of a call. The subscription id is read when the call is made. -/
def LibraryCall.event? (w : World V) : LibraryCall → Option (Event V)
  | subscriptionsCreate response => some (.subscriptionsCreate w.publishingInterval response)
  | subscriptionsDelete ret => some (.subscriptionsDelete w.subscriptionID ret)
  | createDataChange request result =>
    some (.createDataChange { request with subscriptionId := w.subscriptionID } result)
  | deleteMonitoredItem monitoredItemId browseName ret =>
    some (.deleteMonitoredItem w.subscriptionID monitoredItemId browseName ret)
  | _ => none

/-- The call begins or ends a subscription. -/
def LibraryCall.isSubscription : LibraryCall → Bool
  | subscriptionsCreate _ => true
  | subscriptionsDelete _ => true
  | _ => false

/-! ## Operations -/

inductive Op (V : Type)
  -- handleException, deactivate
  | raise (message : String) (deactivating : Bool)
  | clearActive (removal : Reply V UA_StatusCode)
  | clearRun
  | testActive (removal : Reply V UA_StatusCode)
  | clearSubscriptionActive
  | testThread (removal : Reply V UA_StatusCode)
  | recordRemoval
  | clearAsync
  -- the library
  | library (call : LibraryCall) (callbacks : List (Callback V))
  | callback (c : Callback V)
  | testConnection
  | closeSession
  | pushData (monId : Nat) (value : DataValue V)
  -- removeSubscription, createSubscription
  | clearID
  | resetItems
  | testID (removal : Reply V UA_StatusCode)
  | storeID (response : CreateSubscriptionResponse) (noexcept : Bool)
  | setSubscriptionActive
  -- addMonitoredItems
  | loopItems (replies : Nat → Reply V MonitoredItemCreateResult)
  | monitorItem (reply : Reply V MonitoredItemCreateResult) (i : Nat)
  | created (result : MonitoredItemCreateResult) (i : Nat)
  | answered (result : MonitoredItemCreateResult) (i : Nat) (browseName : String)
  -- activate
  | ensureSubscription (r : Replies V) (noexcept : Bool)
  | setAsync
  | testItems (r : Replies V)
  | activateItems
  -- subscribe, unsubscribe, setExternalError
  | enterItem (r : Replies V) (browseName : String) (node : UA_NodeId) (accessor : Accessor)
  | testAsync (r : Replies V)
  | leaveItem (r : Replies V) (browseName : String) (accessor : Accessor)
  | testRemoved (r : Replies V) (browseName : String) (id : Nat)
  | testEmpty (r : Replies V)
  | findItem (browseName : String) (reporter : Accessor)
  | setExternalError (browseName : String) (reporter : Accessor)
  -- start, stopClientThread
  | testStart
  | spawn
  | assignThread
  | join
  -- runClient
  | testRun
  | iterated (ret : UA_StatusCode)
  | testRemoval (removal : Reply V UA_StatusCode)
  | clearRemoval
  | leaveCleanUp
  | finish
  -- the backend
  | resetManager (r : Replies V)
  | connected (r : Replies V)
  | testConnected (reset r : Replies V)
  | finishOpen
  | clearOpened
  | setActiveException (r : Replies V)
  | testFunctional (r : Replies V)
  | startUnlessThread
  | makeManager
  | startIfAsync
  -- the transfers
  | testOpened
  | checkActiveException
  | readReturned (browseName : String) (reporter : Accessor) (ret : UA_StatusCode)
      (value : DataValue V) (disconnect : Reply V UA_StatusCode)
  | copyVariant (accessor : Accessor) (value : DataValue V)
  | readBeforeWrite (browseName : String) (reporter : Accessor) (isPartial : Bool)
      (read : ReadReply V) (disconnect : Reply V UA_StatusCode)
  | overwrite (accessor : Accessor) (payload : V) (converts : Bool)
  | writeReturned (browseName : String) (reporter : Accessor) (ret : UA_StatusCode)
      (disconnect : Reply V UA_StatusCode)
  | reportError (browseName : String) (reporter : Accessor)
  | throw
  | popNotification (accessor : Accessor)

/-! ## The functions as code -/

abbrev Code (V : Type) := List (Instr (Op V) Lock)

namespace Code

def handleException (message : String) (deactivating : Bool := false) : Code V :=
  [.lock .mutex, .run (.raise message deactivating), .unlock .mutex]

def deactivate (removal : Reply V UA_StatusCode) : Code V :=
  [.lock .mutex, .run (.clearActive removal)]

def deactivateAllAndPushException (removal : Reply V UA_StatusCode)
    (message : String := "Exception reported by another accessor.") : Code V :=
  handleException message true ++ deactivate removal

def resetMonitoredItems : Code V := [.lock .mutex, .run .resetItems, .unlock .mutex]

def removeSubscription (reply : Reply V UA_StatusCode) : Code V :=
  [.run (.library (.subscriptionsDelete reply.result) reply.callbacks), .run .clearID]
    ++ resetMonitoredItems

/-- `createSubscription`; `noexcept` says that a caller lets no exception pass. -/
def createSubscription (r : Replies V) (noexcept : Bool := false) : Code V :=
  [.run (.testID r.subscriptionsDelete), .lock .clientLock,
    .run (.library (.subscriptionsCreate r.subscriptionsCreate.result)
      r.subscriptionsCreate.callbacks),
    .unlock .clientLock, .run (.storeID r.subscriptionsCreate.result noexcept)]

def addMonitoredItems (replies : Nat → Reply V MonitoredItemCreateResult) : Code V :=
  [.lock .mutex, .run (.loopItems replies), .unlock .mutex]

/-- The registration of an item inside the loop of `addMonitoredItems`: the mutex is released
for the call of the library. -/
def createDataChange (request : MonitoredItemCreateRequest)
    (reply : Reply V MonitoredItemCreateResult) (i : Nat) : Code V :=
  [.unlock .mutex, .lock .clientLock,
    .run (.library (.createDataChange request reply.result) reply.callbacks),
    .run (.created reply.result i), .unlock .clientLock, .lock .mutex,
    .run (.answered reply.result i request.browseName)]

def prepare (r : Replies V) : Code V :=
  createSubscription r ++ addMonitoredItems r.createDataChange

def activate (r : Replies V) (noexcept : Bool := false) : Code V :=
  [.run (.ensureSubscription r noexcept), .run .setAsync, .run (.testItems r)]

def subscribe (r : Replies V) (browseName : String) (node : UA_NodeId) (accessor : Accessor) :
    Code V :=
  [.lock .mutex, .run (.enterItem r browseName node accessor)]

def unsubscribe (r : Replies V) (browseName : String) (accessor : Accessor) : Code V :=
  [.lock .mutex, .run (.leaveItem r browseName accessor)]

def setExternalError (browseName : String) (reporter : Accessor) : Code V :=
  [.run (.findItem browseName reporter)]

def start : Code V := [.run .testStart]

def stopClientThread : Code V := [.run .join]

/-- The part of `runClient` at the place where the thread stands, up to the next place. -/
def runClient (iterate removal : Reply V UA_StatusCode) : ClientThread → Option (Code V)
  | .loopHead => some [.run .testRun]
  | .iterating => some [.lock .clientLock, .run (.library .runIterate iterate.callbacks),
      .run (.iterated iterate.result), .unlock .clientLock]
  | .cleanUp => some [.lock .clientLock, .run (.testRemoval removal), .unlock .clientLock,
      .run .leaveCleanUp]
  | .finishing => some [.run .finish]
  | .ended => none

def resetClient (r : Replies V) : Code V :=
  [.run (.resetManager r), .lock .clientLock, .run (.library .disconnect r.disconnect.callbacks),
    .unlock .clientLock]

def connect (reset r : Replies V) : Code V :=
  resetClient reset ++ [.lock .clientLock, .run (.library .connect r.connect.callbacks),
    .unlock .clientLock, .run (.connected r)]

def openDevice (reset r : Replies V) : Code V :=
  [.run (.testConnected reset r), .run .finishOpen]

def closeDevice (r : Replies V) : Code V := .run .clearOpened :: resetClient r

def activateAsyncRead (r : Replies V) : Code V :=
  [.lock .asyncReadLock, .run (.testFunctional r), .unlock .asyncReadLock]

def setException (r : Replies V) : Code V := [.run (.setActiveException r)]

def constructAccessor (r : Replies V) (browseName : String) (node : UA_NodeId)
    (accessor : Accessor) : Code V :=
  .run .makeManager :: subscribe r browseName node accessor ++ [.run .startIfAsync]

/-- `handleError`, with the lock of the transfer released by the exception. -/
def handleError (browseName : String) (reporter : Accessor)
    (disconnect : Reply V UA_StatusCode) : Code V :=
  [.run (.reportError browseName reporter), .run (.library .disconnect disconnect.callbacks),
    .unlock .clientLock, .run .throw]

/-- `doReadTransferSynchronously`. -/
def readTransfer (browseName : String) (reporter : Accessor)
    (read : ReadReply V) (disconnect : Reply V UA_StatusCode) : Code V :=
  [.run .checkActiveException, .lock .clientLock, .run (.library .read read.callbacks),
    .run (.readReturned browseName reporter read.result read.value disconnect),
    .unlock .clientLock]

/-- A read of an accessor: `doPreRead` and the transfer. -/
def read (browseName : String) (reporter : Accessor) (read : ReadReply V)
    (disconnect : Reply V UA_StatusCode) : Code V :=
  .run .testOpened :: readTransfer browseName reporter read disconnect

/-- A write of an accessor: `doPreWrite` and `doWriteTransfer`. The payload is that of the
accessor's value after the loop over the elements, which ends early at one that does not
convert. -/
def write (browseName : String) (reporter : Accessor) (isPartial : Bool) (read : ReadReply V)
    (payload : V) (converts : Bool) (write disconnect : Reply V UA_StatusCode) : Code V :=
  [.run .testOpened, .run .checkActiveException,
    .run (.readBeforeWrite browseName reporter isPartial read disconnect),
    .run (.overwrite reporter payload converts), .lock .clientLock,
    .run (.library .write write.callbacks),
    .run (.writeReturned browseName reporter write.result disconnect), .unlock .clientLock]

end Code

/-! ## The state -/

/-- The state of the manager and the backend, with the client thread, which exists before the
thread object is assigned. -/
structure Process (V : Type) extends World V where
  client : Option ClientThread := none
  /-- the accessors `deactivateAllAndPushException` gave an exception since the last activation -/
  excepted : List Accessor := []
  /-- `deactivate` returned since the last activation -/
  deactivated : Bool := false
  /-- the ids registered for active items in the subscription, with the names of the items -/
  registered : List (Nat × String) := []

namespace Process

variable (p : Process V)

/-- Change the state of the manager and the backend. -/
def on (f : World V → World V) : Process V := { p with toWorld := f p.toWorld }

/-- The client thread comes to a place. -/
def atPlace (place : ClientThread) : Process V :=
  { p with client := some place, opcuaThread := p.opcuaThread.map fun _ => place }

/-- Go on with the code. -/
def into (code : Code V) : Option (Process V × Next (Op V) Lock) := some (p, .into code)

/-- Leave the call by an exception. -/
def out : Option (Process V × Next (Op V) Lock) := some (p, .out)

end Process

/-! ## What the operations do -/

/-- The critical section of `responseHandler`. The address is looked up once more; where there
is none the map makes a null address. -/
def pushData (monId : Nat) (value : DataValue V) (w : World V) : World V :=
  match w.subscriptionMap.lookup monId with
  -- the entry was erased after it was tested
  | none => w.fail .danglingPointer
  | some q =>
    match w.items.get? q with
    -- the address is that of an item that was erased
    | none => w.fail .danglingPointer
    | some item =>
      let w' := { w with
        items := w.items.mapSlots fun q' item =>
          if q' = q then { item with hasException := false } else item }
      w'.pushAll (.data value) item.accessors

/-- A callback, up to the first access that follows a test. -/
def enterCallback (c : Callback V) (p : Process V) : Option (Process V × Next (Op V) Lock) :=
  match c with
  -- the states are stored first, and tested one access later
  | .state channelState sessionState =>
    { p with channelState := channelState, sessionState := sessionState }.into
      [.run .testConnection]
  | .inactivity subId =>
    if p.isFunctional && p.isConnected && p.subscriptionManager && p.run
        && p.subscriptionID == subId then
      p.into (Code.deactivateAllAndPushException { result := .good }
        ("No activity for subscriptions: " ++ toString subId) ++ [.run .closeSession])
    else p.into []
  | .deleteSubscription _ => { p.on setInactive with registered := [] }.into []
  | .dataChange monId value =>
    match p.subscriptionMap.lookup monId with
    | none => p.into []
    | some q =>
      match p.items.get? q with
      | none => (p.on (·.fail .danglingPointer)).into []
      | some item =>
        -- active is tested without the mutex
        if item.active then
          p.into [.lock .mutex, .run (.pushData monId value), .unlock .mutex]
        else p.into []

/-- The loop body of `addMonitoredItems`, up to the request. -/
def monitorItem (reply : Reply V MonitoredItemCreateResult) (i : Nat) (p : Process V) :
    Option (Process V × Next (Op V) Lock) :=
  let p := p.on (activateIfAsync i)
  match p.items.elems[i]? with
  | none => p.into []
  | some item =>
    if item.isMonitored then p.into []
    else
      match item.accessors.head? with
      | none => (p.on (·.fail .noAccessor)).into []
      | some first => p.into (Code.createDataChange (monitoringRequest p.toWorld item first) reply i)

/-- The critical section of `subscribe`, with what follows it. -/
def enterItem (r : Replies V) (browseName : String) (node : UA_NodeId) (accessor : Accessor)
    (p : Process V) : Option (Process V × Next (Op V) Lock) :=
  let p := { p.on (World.record (.subscribed accessor browseName)) with
    excepted := p.excepted.filter (· ≠ accessor) }
  match p.find? browseName with
  | none =>
    let item : MonitorItem := { node := node, accessors := [accessor], browseName := browseName }
    -- whether asynchronous reading is active is tested without the mutex
    { p with items := p.items.pushBack item }.into [.unlock .mutex, .run (.testAsync r)]
  | some (i, item) =>
    match item.accessors.getLast? with
    | none => (p.on (·.fail .noAccessor)).into [.unlock .mutex]
    | some tmp =>
      let p := { p with
        items := p.items.modify i fun item =>
          { item with accessors := item.accessors ++ [accessor] } }
      if item.active then
        match pushInitialValue r.frontOfException tmp accessor p.toWorld with
        | .returned w => { p with toWorld := w }.into [.unlock .mutex]
        -- the exception leaves the mutex locked
        | .threw _ _ => p.out
      else p.into [.unlock .mutex]

/-- The critical section of `unsubscribe`, with what follows it. -/
def leaveItem (r : Replies V) (browseName : String) (accessor : Accessor) (p : Process V) :
    Option (Process V × Next (Op V) Lock) :=
  match p.find? browseName with
  | none => p.into [.unlock .mutex]
  | some (i, item) =>
    if 1 < item.accessors.length then
      if accessor ∈ item.accessors then
        { p with
          items := p.items.modify i fun item =>
            { item with accessors := item.accessors.erase accessor } }.into [.unlock .mutex]
      else (p.on (·.fail .eraseAtEnd)).into [.unlock .mutex]
    else
      { p with
        subscriptionMap := p.subscriptionMap.erase item.id
        items := p.items.erase i
        registered := p.registered.filter (·.2 ≠ browseName) }.into
          [.unlock .mutex, .run (.testRemoved r browseName item.id)]

/-- The loop of `doWriteTransfer` over the elements: the accessor's own value is overwritten. -/
def overwriteValue (accessor : Accessor) (payload : V) (converts : Bool) (p : Process V) :
    Option (Process V × Next (Op V) Lock) :=
  let data := (p.accessors accessor).data
  match data.value with
  -- the read before has left no value
  | none => (p.on (·.fail .nullPointer)).into []
  | some _ =>
    let p := p.on (ownTransfer accessor { data with value := some payload })
    if converts then p.into [] else p.out

/-- What an operation does to the state, and how its thread goes on. -/
def Op.exec : Op V → Process V → Option (Process V × Next (Op V) Lock)
  | raise message deactivating, p =>
    let raising := (p.items.elems.filter MonitorItem.raises).flatMap (·.accessors)
    { p.on (handleException message) with
      excepted := if deactivating then raising ++ p.excepted else p.excepted }.into []
  -- the rest of `deactivate` runs without the mutex
  | clearActive removal, p =>
    { p.on OpcUaBackend.clearActive with registered := [] }.into
      [.unlock .mutex, .run .clearRun, .run (.testActive removal), .run .clearAsync]
  | clearRun, p => { p with run := false }.into []
  | testActive removal, p =>
    p.into (if p.subscriptionActive then [.run .clearSubscriptionActive, .run (.testThread removal)]
      else [])
  | clearSubscriptionActive, p => { p with subscriptionActive := false }.into []
  | testThread removal, p =>
    p.into (if p.opcuaThread.isSome then [.run .recordRemoval]
      else [.lock .clientLock] ++ Code.removeSubscription removal ++ [.unlock .clientLock])
  | recordRemoval, p => { p with subscriptionNeedsToBeRemoved := true }.into []
  | clearAsync, p => { p with asyncReadActive := false, deactivated := true }.into []
  -- the callbacks of a call run one after the other, inside it
  | library call callbacks, p =>
    { p with
      history := (call.event? p.toWorld).toList ++ p.history
      registered := if call.isSubscription then [] else p.registered }.into
        (callbacks.map fun c => Instr.run (.callback c))
  | callback c, p => enterCallback c p
  | testConnection, p =>
    p.into (if p.opened && !p.isConnected && p.subscriptionManager && p.run then
      Code.deactivateAllAndPushException { result := .good } "Client session is not open any more."
      else [])
  | closeSession, p => { p with sessionState := .closed }.into []
  | pushData monId value, p => (p.on (OpcUaBackend.pushData monId value)).into []
  | clearID, p => { p with subscriptionID := 0 }.into []
  | resetItems, p => { p.on resetMonitoredItems with registered := [] }.into []
  | testID removal, p =>
    p.into (if p.subscriptionID ≠ 0 then Code.removeSubscription removal else [])
  -- an exception in `activateAsyncRead` ends the program
  | storeID response noexcept, p =>
    if response.serviceResult.isGood then
      { p with
        subscriptionID := response.subscriptionId
        publishingInterval := response.revisedPublishingInterval }.into [.run .setSubscriptionActive]
    else if noexcept then (p.on (·.fail .terminate)).into [] else p.out
  | setSubscriptionActive, p => { p with subscriptionActive := true }.into []
  -- the loop goes over as many items as there are at its start
  | loopItems replies, p =>
    p.into ((List.range p.items.size).map fun i => Instr.run (.monitorItem (replies i) i))
  | monitorItem reply i, p => OpcUaBackend.monitorItem reply i p
  -- the server delivers from here on, before the answer has been stored
  | created result i, p =>
    match p.items.elems[i]? with
    | none => p.into []
    | some item =>
      { p with
        registered := if result.statusCode.isGood && item.active then
          (result.monitoredItemId, item.browseName) :: p.registered else p.registered }.into []
  -- `handleException` takes the mutex itself
  | answered result i browseName, p =>
    if result.statusCode.isGood then (p.on (monitoringAnswered i browseName result)).into []
    else
      p.into ([.unlock .mutex] ++ Code.handleException ("Failed to add monitored item for node: "
        ++ browseName ++ " Error: " ++ result.statusCode.name) ++ [.lock .mutex])
  | ensureSubscription r noexcept, p =>
    p.into (if p.subscriptionActive then [] else Code.createSubscription r noexcept)
  | setAsync, p => { p with asyncReadActive := true, excepted := [], deactivated := false }.into []
  | testItems r, p =>
    p.into (if 0 < p.items.size ∧ p.subscriptionMap.entries = [] then
        Code.addMonitoredItems r.createDataChange
      else [.lock .mutex, .run .activateItems, .unlock .mutex])
  | activateItems, p => (p.on OpcUaBackend.activateItems).into []
  | enterItem r browseName node accessor, p =>
    OpcUaBackend.enterItem r browseName node accessor p
  | testAsync r, p =>
    p.into (if p.asyncReadActive then
      [.run (.ensureSubscription r false)] ++ Code.addMonitoredItems r.createDataChange else [])
  | leaveItem r browseName accessor, p => OpcUaBackend.leaveItem r browseName accessor p
  | testRemoved r browseName id, p =>
    p.into (if id ≠ 0 ∧ p.isConnected then
      [.lock .clientLock,
        .run (.library (.deleteMonitoredItem id browseName r.deleteMonitoredItem.result)
          r.deleteMonitoredItem.callbacks),
        .unlock .clientLock, .run (.testEmpty r)]
      else [])
  -- the number of items is read without the mutex
  | testEmpty r, p =>
    p.into (if p.items.size = 0 then
      [.lock .clientLock] ++ Code.removeSubscription r.subscriptionsDelete
        ++ [.unlock .clientLock, .run .clearRun] ++ Code.stopClientThread
      else [])
  -- the item is looked up without the mutex
  | findItem browseName reporter, p =>
    p.into (if (p.find? browseName).isSome then
      [.lock .mutex, .run (.setExternalError browseName reporter), .unlock .mutex] else [])
  | setExternalError browseName reporter, p =>
    (p.on (OpcUaBackend.setExternalError browseName reporter)).into []
  | testStart, p =>
    if p.subscriptionActive then { p with run := true }.into [.run .spawn, .run .assignThread]
    else { p with run := false }.into []
  | spawn, p =>
    -- assigning to the object of a joinable thread ends the program
    if p.client.isSome then (p.on (·.fail .terminate)).into []
    else { p with client := some .loopHead }.into []
  | assignThread, p => { p with opcuaThread := p.client }.into []
  | join, p =>
    match p.opcuaThread with
    | none => p.into []
    | some _ =>
      -- waits for the end of the client thread
      if p.client = some .ended then { p with client := none, opcuaThread := none }.into []
      else none
  -- `_run` is cleared by other threads, and seen here
  | testRun, p => (p.atPlace (if p.run then .iterating else .cleanUp)).into []
  -- the break for a removal comes before the test of the answer
  | iterated ret, p =>
    let leaves := p.subscriptionNeedsToBeRemoved || !ret.isGood
    (p.atPlace (if leaves then .cleanUp else .loopHead)).into []
  | testRemoval removal, p =>
    p.into (if p.subscriptionNeedsToBeRemoved then
      Code.removeSubscription removal ++ [.run .clearRemoval] else [])
  | clearRemoval, p => { p with subscriptionNeedsToBeRemoved := false }.into []
  | leaveCleanUp, p => (p.atPlace .finishing).into []
  | finish, p => ({ p with run := false }.atPlace .ended).into []
  | resetManager r, p =>
    p.into (if p.subscriptionManager then
      Code.deactivate r.subscriptionsDelete ++ Code.resetMonitoredItems ++ Code.stopClientThread
      else [])
  | connected r, p =>
    if r.connect.result.isGood then
      p.into (if p.subscriptionManager then Code.prepare r else [])
    else p.out
  | testConnected reset r, p =>
    p.into (if p.isConnected then []
      else (if p.subscriptionManager then Code.stopClientThread else []) ++ Code.connect reset r)
  | finishOpen, p =>
    if p.isConnected then { p with opened := true, hasActiveException := false }.into [] else p.out
  | clearOpened, p => { p with opened := false }.into []
  | setActiveException r, p =>
    { p with hasActiveException := true }.into (if p.subscriptionManager then
      Code.deactivateAllAndPushException r.subscriptionsDelete else [])
  | testFunctional r, p =>
    if p.isFunctional then
      { p with subscriptionManager := true }.into
        (Code.activate r true ++ [Instr.run Op.startUnlessThread])
    else p.into []
  | startUnlessThread, p => p.into (if p.opcuaThread.isNone then Code.start else [])
  | makeManager, p => { p with subscriptionManager := true }.into []
  | startIfAsync, p =>
    p.into (if p.asyncReadActive && p.opcuaThread.isNone then Code.start else [])
  | testOpened, p => if p.opened then p.into [] else p.out
  | checkActiveException, p => if p.hasActiveException then p.out else p.into []
  | readReturned browseName reporter ret value disconnect, p =>
    p.into (if ret.isGood then [.run (.copyVariant reporter value)]
      else Code.handleError browseName reporter disconnect)
  | copyVariant accessor value, p => (p.on (ownTransfer accessor value)).into []
  | readBeforeWrite browseName reporter isPartial read disconnect, p =>
    p.into (if isPartial || !(p.accessors reporter).data.hasValue then
      Code.readTransfer browseName reporter read disconnect else [])
  | overwrite accessor payload converts, p => overwriteValue accessor payload converts p
  | writeReturned browseName reporter ret disconnect, p =>
    p.into (if ret.isGood then []
      else if ret.code = UA_STATUSCODE_BADNOTWRITABLE
          ∨ ret.code = UA_STATUSCODE_BADWRITENOTSUPPORTED then
        [.run (.reportError browseName reporter), .unlock .clientLock, .run .throw]
      else Code.handleError browseName reporter disconnect)
  | reportError browseName reporter, p =>
    p.into (if p.subscriptionManager then Code.setExternalError browseName reporter else [])
  | throw, p => p.out
  | popNotification accessor, p => (p.on (OpcUaBackend.popNotification accessor)).into []

theorem Process.into_eq {p p' : Process V} {code : Code V} {next : Next (Op V) Lock} :
    p.into code = some (p', next) ↔ p = p' ∧ .into code = next := by
  simp [Process.into]

theorem Process.out_eq {p p' : Process V} {next : Next (Op V) Lock} :
    p.out = some (p', next) ↔ p = p' ∧ .out = next := by
  simp [Process.out]

/-! ## The program -/

/-- The client thread, and the application threads. -/
inductive Thread (α : Type)
  | client
  | app (a : α)
  deriving DecidableEq

instance Thread.decidableForall {P : Thread Unit → Prop} [∀ t, Decidable (P t)] :
    Decidable (∀ t, P t) :=
  decidable_of_iff (P .client ∧ P (.app ()))
    ⟨fun h t => match t with
      | .client => h.1
      | .app () => h.2, fun h => ⟨h _, h _⟩⟩

instance Thread.decidableExists {P : Thread Unit → Prop} [∀ t, Decidable (P t)] :
    Decidable (∃ t, P t) :=
  decidable_of_iff (P .client ∨ P (.app ()))
    ⟨fun h => h.elim (fun h => ⟨_, h⟩) fun h => ⟨_, h⟩, fun ⟨t, h⟩ => match t, h with
      | .client, h => .inl h
      | .app (), h => .inr h⟩

/-- The calls: of the application, and the next part of `runClient`. -/
inductive Entry (V : Type)
  | openDevice (reset r : Replies V)
  | closeDevice (r : Replies V)
  | activateAsyncRead (r : Replies V)
  | setException (r : Replies V)
  | constructAccessor (r : Replies V) (browseName : String) (node : UA_NodeId)
      (accessor : Accessor)
  | destroyAccessor (r : Replies V) (browseName : String) (accessor : Accessor)
  | read (browseName : String) (accessor : Accessor) (readReply : ReadReply V)
      (disconnect : Reply V UA_StatusCode)
  | write (browseName : String) (accessor : Accessor) (isPartial : Bool)
      (readReply : ReadReply V) (payload : V) (converts : Bool)
      (writeReply disconnect : Reply V UA_StatusCode)
  | popNotification (accessor : Accessor)
  -- the manager
  | subscribe (r : Replies V) (browseName : String) (node : UA_NodeId) (accessor : Accessor)
  | activate (r : Replies V)
  | deactivate (r : Replies V)
  | deactivateAllAndPushException (r : Replies V) (message : String)
  | prepare (r : Replies V)
  | resetMonitoredItems
  | setExternalError (browseName : String) (accessor : Accessor)
  | start
  | stopClientThread
  -- the client thread
  | runClient (iterate removal : Reply V UA_StatusCode)

/-- The code of a call of the application. -/
def Entry.applicationCode : Entry V → Option (Code V)
  | openDevice reset r => some (Code.openDevice reset r)
  | closeDevice r => some (Code.closeDevice r)
  | activateAsyncRead r => some (Code.activateAsyncRead r)
  | setException r => some (Code.setException r)
  | constructAccessor r browseName node accessor =>
    some (Code.constructAccessor r browseName node accessor)
  | destroyAccessor r browseName accessor => some (Code.unsubscribe r browseName accessor)
  | read browseName accessor readReply disconnect =>
    some (Code.read browseName accessor readReply disconnect)
  | write browseName accessor isPartial readReply payload converts writeReply disconnect =>
    some (Code.write browseName accessor isPartial readReply payload converts writeReply
      disconnect)
  | popNotification accessor => some [.run (.popNotification accessor)]
  | subscribe r browseName node accessor => some (Code.subscribe r browseName node accessor)
  | activate r => some (Code.activate r)
  | deactivate r => some (Code.deactivate r.subscriptionsDelete)
  | deactivateAllAndPushException r message =>
    some (Code.deactivateAllAndPushException r.subscriptionsDelete message)
  | prepare r => some (Code.prepare r)
  | resetMonitoredItems => some Code.resetMonitoredItems
  | setExternalError browseName accessor => some (Code.setExternalError browseName accessor)
  | start => some Code.start
  | stopClientThread => some Code.stopClientThread
  | runClient _ _ => none

/-- The code of a call: the client thread goes on in `runClient`, the others make calls. -/
def Entry.code : Thread α → Entry V → Process V → Option (Code V)
  | .client, .runClient iterate removal, p => p.client.bind (Code.runClient iterate removal)
  | .client, _, _ => none
  | .app _, c, _ => c.applicationCode

/-- The process before the first call. -/
structure Process.Fresh (p : Process V) : Prop where
  world : p.toWorld.Fresh
  client : p.client = none
  excepted : p.excepted = []
  deactivated : p.deactivated = false
  registered : p.registered = []

/-- The threads of the process. A state with a fault has no further steps, and the library
keeps its contract. -/
def threads (V α : Type) : Program (Process V) (Thread α) (Entry V) (Op V) Lock where
  init := Process.Fresh
  code := Entry.code
  exec := Op.exec
  admits p p' := p.fault = none ∧ LibraryContract p'.history

instance (p p' : Process V) : Decidable ((threads V α).admits p p') :=
  inferInstanceAs (Decidable (p.fault = none ∧ LibraryContract p'.history))

theorem Process.fresh_default : Process.Fresh ({} : Process V) :=
  ⟨World.fresh_default, rfl, rfl, rfl, rfl⟩

/-- The state of all threads. -/
abbrev State (V α : Type) := Threads (Process V) (Thread α) (Op V) Lock

/-- A call of a thread, and the first `n` steps of its code. -/
def Entry.steps (t : Thread α) (c : Entry V) (n : Nat) : List (Move (Thread α) (Entry V)) :=
  .enter t c :: List.replicate n (.advance t)

/-- What holds of the operation that the code begins with. -/
def BeginsWith (G : Op V → Prop) : Code V → Prop
  | .run i :: _ => G i
  | _ => True

instance BeginsWith.decidable {G : Op V → Prop} [∀ i, Decidable (G i)] :
    (code : Code V) → Decidable (BeginsWith G code)
  | [] => .isTrue trivial
  | .lock _ :: _ => .isTrue trivial
  | .unlock _ :: _ => .isTrue trivial
  | .run i :: _ => inferInstanceAs (Decidable (G i))

theorem BeginsWith.mono {G G' : Op V → Prop} (hG : ∀ i, G i → G' i) {code : Code V}
    (h : BeginsWith G code) : BeginsWith G' code := by
  cases code with
  | nil => trivial
  | cons x rest =>
    cases x with
    | lock l => trivial
    | unlock l => trivial
    | run i => exact hG i h

/-- The condition on a step: on the operation that a thread runs. -/
def OnRun (G : State V α → Thread α → Op V → Prop) (s : State V α) :
    Move (Thread α) (Entry V) → Prop
  | .enter _ _ => True
  | .advance t => BeginsWith (G s t) (s.stack t)

theorem OnRun.run {G : State V α → Thread α → Op V → Prop} {s : State V α} {t : Thread α}
    {i : Op V} {rest : Code V} (h : OnRun G s (.advance t)) (hstack : s.stack t = .run i :: rest) :
    G s t i := by
  rw [OnRun, hstack] at h
  exact h

theorem OnRun.mono {G G' : State V α → Thread α → Op V → Prop} {s : State V α}
    {m : Move (Thread α) (Entry V)} (hG : ∀ t i, G s t i → G' s t i) (h : OnRun G s m) :
    OnRun G' s m := by
  cases m with
  | enter t c => trivial
  | advance t => exact BeginsWith.mono (hG t) h

instance OnRun.decidable {G : State V α → Thread α → Op V → Prop}
    [∀ s t i, Decidable (G s t i)] (s : State V α) :
    (m : Move (Thread α) (Entry V)) → Decidable (OnRun G s m)
  | .enter _ _ => .isTrue trivial
  | .advance t => inferInstanceAs (Decidable (BeginsWith (G s t) (s.stack t)))

end OpcUaBackend
