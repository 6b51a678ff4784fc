import OpcUaBackend.Catalogue.Entries
import OpcUaBackend.Foundation.Splice

/-!
# The transfers of an accessor

An accessor keeps the value it read or received last. A write takes this value, overwrites the
accessor's window in it and sends the whole of it, which replaces the value of the node. A
partial write reads the value first. With an index range the value is only a part of the
node's, and so is what a write sends.

The functions of the client library that cut a range out of a value are a parameter, as are
the conversions of the elements.

## Main definitions

* `ManagedDataValue`, `copyVariant`: the value an accessor keeps
* `RegisterAccessor`, `doReadTransferSynchronously`, `doWriteTransfer`: the transfers
-/

namespace OpcUaBackend

open Foundation

variable {α κ : Type}

/-! ## Values -/

/-- A `ManagedDataValue`; `variant` is nothing where the payload's pointer is null. -/
structure ManagedDataValue (α : Type) where
  variant : Option (List α) := none
  hasValue : Bool := false
  status : UA_StatusCode := .good
  sourceTimestamp : Int := 0
  deriving DecidableEq, Repr

namespace ManagedDataValue

def prepare (d : ManagedDataValue α) : ManagedDataValue α := if d.hasValue then {} else d

/-- The payload that `copyVariant` takes from a value, and the status. -/
def copyPayload (ranges : Ranges α) (src : List α) (dataRange : String)
    (d : ManagedDataValue α) : ManagedDataValue α :=
  if dataRange = "" then { d with variant := some src }
  else
    match ranges.copyRange src (ranges.numericRange dataRange) with
    | .ok elements => { d with variant := some elements, status := .good }
    | .error status => { d with status := status }

def copyVariant (ranges : Ranges α) (src : List α) (dataRange : String) (now : Int)
    (d : ManagedDataValue α) : ManagedDataValue α :=
  let d := d.prepare.copyPayload ranges src dataRange
  if d.status.isGood then { d with hasValue := true, sourceTimestamp := now } else d

end ManagedDataValue

/-! ## Transfers -/

/-- The parts of an accessor its transfers use. -/
structure RegisterAccessor (α κ : Type) where
  info : OpcUABackendRegisterInfo
  node_id : String
  numberOfWords : Nat
  offsetWords : Nat
  ranges : Ranges α
  /-- `toOpcUA.convert` -/
  toOpcUA : κ → Except String α
  /-- what `UA_clear` leaves -/
  cleared : α

namespace RegisterAccessor

/-- `isPartial`, as the constructor sets it. -/
def isPartial (a : RegisterAccessor α κ) : Bool := a.info.arrayLength != a.numberOfWords

/-- The condition that `getRegisterAccessor_impl` leaves for an accessor. -/
def InRegister (a : RegisterAccessor α κ) : Prop :=
  0 < a.numberOfWords ∧ a.numberOfWords + a.offsetWords ≤ a.info.arrayLength

end RegisterAccessor

/-- How a transfer ends. An element beyond the value is undefined behaviour. -/
inductive Outcome
  | done
  | logicError (message : String)
  | runtimeError (message : String)
  | undefinedBehaviour
  deriving DecidableEq, Repr

/-- `std::hex`. -/
def hex (n : Nat) : String := String.ofList (Nat.toDigits 16 n)

/-- The exception of `handleError`, which also reports to the subscription manager and closes
the connection. -/
def handleError (node_id : String) (retval : UA_StatusCode) : Outcome :=
  .runtimeError ("OPC-UA-Backend::Failed to access variable: " ++ node_id ++ " with reason: "
    ++ retval.name ++ " --> " ++ hex retval.code)

/-- The server's value of the node, the value the accessor keeps, and how the transfer ended. -/
structure Transfer (α : Type) where
  server : List α
  data : ManagedDataValue α
  outcome : Outcome

/-- The message of an active exception of the device, the library's answers to the calls of a
transfer, and the time of a read. -/
structure Answers where
  activeException : Option String := none
  read : UA_StatusCode := .good
  write : UA_StatusCode := .good
  now : Int := 0

def UA_STATUSCODE_BADNOTWRITABLE : Nat := 0x803B0000
def UA_STATUSCODE_BADWRITENOTSUPPORTED : Nat := 0x80730000

/-- `checkActiveException`, before anything else. -/
def checkActiveException (answers : Answers) (server : List α) (data : ManagedDataValue α)
    (transfer : Transfer α) : Transfer α :=
  match answers.activeException with
  | some message => ⟨server, data, .runtimeError message⟩
  | none => transfer

def doReadTransferSynchronously (a : RegisterAccessor α κ) (answers : Answers)
    (server : List α) (data : ManagedDataValue α) : Transfer α :=
  checkActiveException answers server data <|
    if answers.read.isGood then
      ⟨server, data.copyVariant a.ranges server a.info.indexRange answers.now, .done⟩
    else ⟨server, data, handleError a.node_id answers.read⟩

/-- The loop of `doWriteTransfer` over the elements of the window, from the position `i` of the
value on. -/
def overwrite (toOpcUA : κ → Except String α) (cleared : α) : Nat → List κ → List α →
    List α × Outcome
  | _, [], elements => (elements, .done)
  | i, x :: xs, elements =>
    if i < elements.length then
      match toOpcUA x with
      | .error message => (elements.set i cleared, .logicError message)
      | .ok y => overwrite toOpcUA cleared (i + 1) xs (elements.set i y)
    else (elements, .undefinedBehaviour)

/-- The end of `doWriteTransfer`: the value is sent. -/
def writeValue (a : RegisterAccessor α κ) (answers : Answers) (server elements : List α)
    (data : ManagedDataValue α) : Transfer α :=
  if answers.write.isGood then ⟨elements, data, .done⟩
  else if answers.write.code = UA_STATUSCODE_BADNOTWRITABLE ∨
      answers.write.code = UA_STATUSCODE_BADWRITENOTSUPPORTED then
    ⟨server, data, .logicError ("OPC-UA-Backend::Variable " ++ a.node_id ++ " is not writable!")⟩
  else ⟨server, data, handleError a.node_id answers.write⟩

/-- The read that a write starts with, when it is partial or there is no value yet. -/
def readBeforeWrite (a : RegisterAccessor α κ) (answers : Answers) (server : List α)
    (data : ManagedDataValue α) : Transfer α :=
  if a.isPartial || !data.hasValue then doReadTransferSynchronously a answers server data
  else ⟨server, data, .done⟩

/-- The modification and the sending of the value. -/
def modifyAndWrite (a : RegisterAccessor α κ) (answers : Answers) (server elements : List α)
    (data : ManagedDataValue α) (buffer : List κ) : Transfer α :=
  let (elements, outcome) := overwrite a.toOpcUA a.cleared a.offsetWords buffer elements
  let data := { data with variant := some elements }
  if outcome = .done then writeValue a answers server elements data else ⟨server, data, outcome⟩

def doWriteTransfer (a : RegisterAccessor α κ) (answers : Answers) (server : List α)
    (data : ManagedDataValue α) (buffer : List κ) : Transfer α :=
  checkActiveException answers server data <|
    let read := readBeforeWrite a answers server data
    if read.outcome = .done then
      match read.data.variant with
      | some elements => modifyAndWrite a answers server elements read.data buffer
      | none => ⟨server, read.data, .undefinedBehaviour⟩
    else read

/-! ## The set-up of a register -/

/-- The number of elements that `addCatalogueEntry` gives the register of an array, in unsigned
arithmetic of 32 bits for a range. -/
def registerLength (ranges : Ranges α) (range : String) (array : List α) : Option Nat :=
  if array.length = 0 then none
  else if range = "" then some array.length
  else
    match ranges.numericRange range with
    | [dimension] => some ((dimension.max + 2 ^ 32 - dimension.min + 1) % 2 ^ 32)
    | _ => none

end OpcUaBackend
