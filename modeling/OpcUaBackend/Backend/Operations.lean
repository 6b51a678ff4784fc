import OpcUaBackend.Manager.Operations

/-!
# The functions of the backend

The functions of `OpcUABackend` that open, close, activate and recover the device, and the
part of an accessor's construction that subscribes it, over the functions of the
subscription manager.

## Main definitions

* `resetClient`, `connect`, `openDevice`, `closeDevice`: the connection
* `activateAsyncRead`, `setException`, `constructAccessor`: asynchronous reading
-/

namespace OpcUaBackend

variable {V : Type}

def resetClient (r : Replies V) (w : World V) : World V :=
  let w :=
    if w.subscriptionManager then
      -- the removal takes the lock in this thread when no client thread is there
      let w := deactivate (removeSubscription r.subscriptionsDelete) w
      stopClientThread r.clientSteps (resetMonitoredItems w)
    else w
  runCallbacks r.disconnect.callbacks w

/-- `connect`; `reset` answers the calls made by `resetClient`. -/
def connect (reset r : Replies V) (w : World V) : Result V :=
  let w := runCallbacks r.connect.callbacks (resetClient reset w)
  if r.connect.result.isGood then
    -- items that were subscribed before are registered again
    if w.subscriptionManager then prepare r w else .returned w
  else
    .threw ("Failed to connect to opc server: " ++ w.serverAddress ++ " with reason: "
      ++ r.connect.result.name) w

/-- `open`. While it waits for the client to come up no thread runs the client, so the
connection state it waits for is the one that `connect` left. -/
def openDevice (stop reset r : Replies V) (w : World V) : Result V :=
  let connected : Result V :=
    if w.isConnected then .returned w
    else
      let w := if w.subscriptionManager then stopClientThread stop.clientSteps w else w
      connect reset r w
  connected.andThen fun w =>
    if w.isConnected then .returned { w with opened := true, hasActiveException := false }
    else .threw "Connection could not be established." w

/-- `close`. -/
def closeDevice (r : Replies V) (w : World V) : World V :=
  resetClient r { w with opened := false }

/-- `activateAsyncRead`, which is `noexcept`. -/
def activateAsyncRead (r : Replies V) (w : World V) : World V :=
  if w.isFunctional then
    match activate r { w with subscriptionManager := true } with
    -- an exception that leaves a `noexcept` function ends the program
    | .threw _ w => w.fail .terminate
    | .returned w => if w.opcuaThread.isNone then start w else w
  else w

/-- `setException` of the device: the exception becomes active and `setExceptionImpl` runs. -/
def setException (r : Replies V) (w : World V) : World V :=
  let w := { w with hasActiveException := true }
  if w.subscriptionManager then
    deactivateAllAndPushException (removeSubscription r.subscriptionsDelete)
      "Exception reported by another accessor." w
  else w

/-- The part of the accessor's constructor for `wait_for_new_data`. -/
def constructAccessor (r : Replies V) (browseName : String) (node : UA_NodeId)
    (accessor : Accessor) (w : World V) : Result V :=
  (subscribe r browseName node accessor { w with subscriptionManager := true }).andThen fun w =>
    -- the thread may have ended with the last accessor
    if w.asyncReadActive && w.opcuaThread.isNone then .returned (start w) else .returned w

end OpcUaBackend
