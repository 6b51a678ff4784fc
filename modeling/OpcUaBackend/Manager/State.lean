import Mathlib.Data.List.AList
import OpcUaBackend.Foundation.BoundedQueue
import OpcUaBackend.Foundation.SlotDeque

/-!
# The state of the subscription manager

The fields of `OPCUASubscriptionManager`, of the connection and of the backend that its
functions read and write, the accessors it points to, and the answers of the OPC UA client
library. `subscriptionMap` keeps addresses of slots of `items`, as the source does. Two
fields are bookkeeping of this development: `history` lists the library calls, the pushes,
the activations, the reported failures, the subscribed accessors and the transfers, newest
first, and `fault` the first step whose behaviour the language leaves undefined or that never
returns.

A `String` is a `std::string` of the source, here and in the catalogue: each of its characters
stands for the byte of its number, so that lengths and positions count bytes.

## Main definitions

* `MonitorItem`, `AccessorState`, `World`: items, accessors and the state
* `Reply`, `Callback`: an answer of the library and the callbacks that run inside the call
* `Event`, `Fault`: the bookkeeping
-/

namespace OpcUaBackend

open Foundation

/-- A status code, with the name `UA_StatusCode_name` gives it. -/
structure UA_StatusCode where
  code : Nat
  name : String
  deriving DecidableEq, Repr

/-- `UA_STATUSCODE_GOOD`. -/
def UA_StatusCode.good : UA_StatusCode := ⟨0, "Good"⟩

/-- The test `status == UA_STATUSCODE_GOOD`. -/
def UA_StatusCode.isGood (s : UA_StatusCode) : Bool := s.code == 0

/-- `identifierType` and `identifier` of a node id. -/
inductive Identifier
  | numeric (n : Nat)
  | string (s : String)
  deriving DecidableEq, Repr

structure UA_NodeId where
  namespaceIndex : Nat
  identifier : Identifier
  deriving DecidableEq, Repr

inductive UA_SecureChannelState
  | closed | reverseListening | connecting | connected | reverseConnected | rheSent | helSent
  | helReceived | ackSent | ackReceived | opnSent | open | closing
  deriving DecidableEq, Repr

inductive UA_SessionState
  | closed | createRequested | created | activateRequested | activated | closing
  deriving DecidableEq, Repr

/-- The address of an accessor. -/
abbrev Accessor := Nat

/-- The item of the subscription that serves the accessors of one register. -/
structure MonitorItem where
  node : UA_NodeId
  accessors : List Accessor
  id : Nat := 0
  active : Bool := false
  isMonitored : Bool := false
  hasException : Bool := false
  browseName : String
  deriving DecidableEq, Repr

/-- A `UA_DataValue`: the payload when `hasValue` is set, the status and the source time. -/
structure DataValue (V : Type) where
  value : Option V := none
  status : UA_StatusCode := .good
  sourceTimestamp : Int := 0
  deriving DecidableEq, Repr

variable {V : Type}

def DataValue.hasValue (d : DataValue V) : Bool := d.value.isSome

/-- The copy constructor of `ManagedDataValue`: the status becomes that of the copying. -/
def DataValue.copy (d : DataValue V) : DataValue V := { d with status := .good }

/-- An element of the notification queue of an accessor. -/
inductive Notification (V : Type)
  | data (value : DataValue V)
  | exception (message : String)
  deriving DecidableEq, Repr

/-- The part of an accessor the manager works on. -/
structure AccessorState (V : Type) where
  indexRange : String := ""
  notifications : BoundedQueue (Notification V) := { capacity := 3 }
  data : DataValue V := {}

/-! ## The library -/

structure CreateSubscriptionResponse where
  serviceResult : UA_StatusCode
  subscriptionId : Nat
  revisedPublishingInterval : Nat
  deriving DecidableEq, Repr

/-- The request of `UA_Client_MonitoredItems_createDataChange`. The browse name is not part of
it; it records for which item the request was made. -/
structure MonitoredItemCreateRequest where
  subscriptionId : Nat
  node : UA_NodeId
  indexRange : String
  samplingInterval : Nat
  browseName : String
  deriving DecidableEq, Repr

structure MonitoredItemCreateResult where
  statusCode : UA_StatusCode
  monitoredItemId : Nat
  deriving DecidableEq, Repr

/-- A callback that the library runs inside a call of the client. -/
inductive Callback (V : Type)
  | state (channelState : UA_SecureChannelState) (sessionState : UA_SessionState)
  | inactivity (subId : Nat)
  | deleteSubscription (subscriptionId : Nat)
  | dataChange (monId : Nat) (value : DataValue V)

/-- The answer to a call of the client: its result, and the callbacks run inside the call. -/
structure Reply (V ρ : Type) where
  result : ρ
  callbacks : List (Callback V) := []

/-- The answer to a read, and the value that it leaves in the accessor when it is GOOD. -/
structure ReadReply (V : Type) extends Reply V UA_StatusCode where
  value : DataValue V := {}

/-- Where the client thread stands in `runClient`. -/
inductive ClientThread
  /-- about to test `_run` -/
  | loopHead
  /-- about to take `client_lock` and iterate -/
  | iterating
  /-- the loop is left, the clean-up not yet done -/
  | cleanUp
  /-- about to clear `_run` -/
  | finishing
  | ended
  deriving DecidableEq, Repr

/-! ## Bookkeeping -/

inductive Event (V : Type)
  | subscriptionsCreate (requestedPublishingInterval : Nat) (response : CreateSubscriptionResponse)
  | subscriptionsDelete (subscriptionId : Nat) (ret : UA_StatusCode)
  | createDataChange (request : MonitoredItemCreateRequest) (result : MonitoredItemCreateResult)
  | deleteMonitoredItem (subscriptionId monitoredItemId : Nat) (browseName : String)
      (ret : UA_StatusCode)
  | pushed (accessor : Accessor) (notification : Notification V)
  /-- `active` of the item is set, whether it was set before or not -/
  | activated (browseName : String) (hasException wasActive : Bool)
  | reported (accessor : Accessor) (browseName : String) (hasException : Bool)
  | subscribed (accessor : Accessor) (browseName : String)
  /-- the accessor has read or written on its own, which changes the data it keeps -/
  | transferred (accessor : Accessor)

inductive Fault
  /-- an address of a destroyed slot is used -/
  | danglingPointer
  /-- an element of an accessor's data is written where there is no value -/
  | nullPointer
  /-- a thread requests `client_lock` while it holds it -/
  | clientLockDeadlock
  /-- an exception leaves `subscribe` with the manager's mutex locked -/
  | mutexLeftLocked
  /-- `at(0)` or `back()` of an empty accessor list -/
  | noAccessor
  /-- `erase` at the end of an accessor list -/
  | eraseAtEnd
  /-- a joined thread does not end -/
  | joinBlocked
  /-- an exception leaves a `noexcept` function, or a joinable thread object is replaced -/
  | terminate
  deriving DecidableEq, Repr

/-! ## The state -/

/-- The flags, the subscription id and the thread: what the client thread and the application
share. -/
structure Lifecycle where
  run : Bool := false
  subscriptionActive : Bool := false
  subscriptionNeedsToBeRemoved : Bool := false
  subscriptionID : Nat := 0
  /-- the thread object and, when there is one, where its thread stands -/
  opcuaThread : Option ClientThread := none
  deriving DecidableEq, Repr

structure World (V : Type) extends Lifecycle where
  asyncReadActive : Bool := false
  items : SlotDeque MonitorItem := {}
  subscriptionMap : AList (fun _ : Nat => Nat) := ∅
  channelState : UA_SecureChannelState := .closed
  sessionState : UA_SessionState := .closed
  serverAddress : String := ""
  publishingInterval : Nat := 500
  accessors : Accessor → AccessorState V := fun _ => {}
  /-- `_subscriptionManager` is set -/
  subscriptionManager : Bool := false
  opened : Bool := false
  hasActiveException : Bool := false
  history : List (Event V) := []
  fault : Option Fault := none

namespace World

/-- `OPCUAConnection::isConnected`. -/
def isConnected (w : World V) : Bool :=
  w.sessionState == .activated && w.channelState == .open

/-- `DeviceBackend::isFunctional`: opened, and no exception is active. -/
def isFunctional (w : World V) : Bool := w.opened && !w.hasActiveException

/-- Add an event to the history. -/
def record (e : Event V) (w : World V) : World V := { w with history := e :: w.history }

/-- Note a fault; the first one counts. -/
def fail (f : Fault) (w : World V) : World V := { w with fault := w.fault <|> some f }

/-- The item `std::find` yields for a browse name, with its position. -/
def find? (w : World V) (browseName : String) : Option (Nat × MonitorItem) :=
  (w.items.elems.findIdx? fun item => item.browseName == browseName).bind fun i =>
    w.items.elems[i]?.map fun item => (i, item)

theorem find?_eq_none {w : World V} {browseName : String} (h : w.find? browseName = none) :
    ∀ item ∈ w.items.elems, item.browseName ≠ browseName := by
  intro item hmem hname
  unfold find? at h
  cases hi : w.items.elems.findIdx? fun item => item.browseName == browseName with
  | none => simpa [hname] using List.findIdx?_eq_none_iff.mp hi item hmem
  | some i =>
    obtain ⟨hlt, -, -⟩ := List.findIdx?_eq_some_iff_getElem.mp hi
    simp [hi, hlt] at h

theorem find?_eq_some {w : World V} {browseName : String} {i : Nat} {item : MonitorItem}
    (h : w.find? browseName = some (i, item)) :
    w.items.elems[i]? = some item ∧ item.browseName = browseName := by
  unfold find? at h
  obtain ⟨j, hj, hitem⟩ := Option.bind_eq_some_iff.mp h
  obtain ⟨item', hitem', heq⟩ := Option.map_eq_some_iff.mp hitem
  obtain ⟨rfl, rfl⟩ := Prod.mk.inj heq
  obtain ⟨hlt, hname, -⟩ := List.findIdx?_eq_some_iff_getElem.mp hj
  obtain ⟨_, hget⟩ := List.getElem?_eq_some_iff.mp hitem'
  exact ⟨hitem', by simpa [hget] using hname⟩

/-- Push into the notification queue of an accessor. -/
def push (n : Notification V) (w : World V) (a : Accessor) : World V :=
  let s := w.accessors a
  let s' := { s with notifications := s.notifications.pushOverwrite n }
  record (.pushed a n) { w with accessors := Function.update w.accessors a s' }

/-- Push into the queues of the accessors, in order. -/
def pushAll (n : Notification V) (as : List Accessor) (w : World V) : World V :=
  as.foldl (push n) w

end World

/-- How a call ends: it returns, or an exception leaves it. -/
inductive Result (V : Type)
  | returned (w : World V)
  | threw (message : String) (w : World V)

namespace Result

/-- The state in which the call ends. -/
def world : Result V → World V
  | returned w => w
  | threw _ w => w

/-- Go on with `f` unless an exception was thrown. -/
def andThen (r : Result V) (f : World V → Result V) : Result V :=
  match r with
  | returned w => f w
  | threw message w => threw message w

end Result

end OpcUaBackend
