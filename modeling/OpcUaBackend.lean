import OpcUaBackend.Foundation.Machine
import OpcUaBackend.Foundation.History
import OpcUaBackend.Foundation.SlotDeque
import OpcUaBackend.Foundation.BoundedQueue
import OpcUaBackend.Foundation.Splice
import OpcUaBackend.Foundation.Folds
import OpcUaBackend.Foundation.Decimal
import OpcUaBackend.Foundation.Utf8
import OpcUaBackend.Foundation.Dom
import OpcUaBackend.Foundation.Texts
import OpcUaBackend.Foundation.Unfolding
import OpcUaBackend.Foundation.Eviction
import OpcUaBackend.Foundation.Ledger
import OpcUaBackend.Foundation.Threads
import OpcUaBackend.Foundation.LockOrder
import OpcUaBackend.Foundation.Sequential
import OpcUaBackend.Foundation.Roster
import OpcUaBackend.Foundation.Saturation
import OpcUaBackend.Foundation.Rescaling
import OpcUaBackend.Foundation.Replacement
import OpcUaBackend.Manager.State
import OpcUaBackend.Manager.Operations
import OpcUaBackend.Backend.Operations
import OpcUaBackend.Backend.Calls
import OpcUaBackend.Manager.Frames
import OpcUaBackend.Manager.Registration
import OpcUaBackend.Manager.Routing
import OpcUaBackend.Manager.Bookkeeping
import OpcUaBackend.Manager.Activation
import OpcUaBackend.Manager.Exceptions
import OpcUaBackend.Manager.Changes
import OpcUaBackend.Manager.Membership
import OpcUaBackend.Manager.InitialValue
import OpcUaBackend.Manager.Refusals
import OpcUaBackend.Backend.ClientLoop
import OpcUaBackend.Manager.Interleaving
import OpcUaBackend.Backend.Lifecycles
import OpcUaBackend.Catalogue.RegisterInfo
import OpcUaBackend.Catalogue.Entries
import OpcUaBackend.Catalogue.Browse
import OpcUaBackend.Catalogue.MapFile
import OpcUaBackend.Catalogue.NodeIds
import OpcUaBackend.Catalogue.Isolation
import OpcUaBackend.Catalogue.Cache
import OpcUaBackend.Catalogue.RoundTrip
import OpcUaBackend.Catalogue.Savers
import OpcUaBackend.Catalogue.Documents
import OpcUaBackend.Catalogue.Names
import OpcUaBackend.Catalogue.Lengths
import OpcUaBackend.Catalogue.Registers
import OpcUaBackend.Catalogue.Ownership
import OpcUaBackend.Accessor.Transfer
import OpcUaBackend.Accessor.WriteWindow
import OpcUaBackend.Accessor.ConcurrentWrites
import OpcUaBackend.Accessor.Construction
import OpcUaBackend.Accessor.ReadWindow
import OpcUaBackend.Accessor.RegisterFile
import OpcUaBackend.Accessor.Versions
import OpcUaBackend.Accessor.TimePoints
import OpcUaBackend.Accessor.Payloads
import OpcUaBackend.Accessor.Conversion
import OpcUaBackend.Backend.Recovery
import OpcUaBackend.Backend.StartUp
import OpcUaBackend.Threads.Code
import OpcUaBackend.Threads.Effects
import OpcUaBackend.Threads.Locks
import OpcUaBackend.Threads.Inactivity
import OpcUaBackend.Threads.Silence
import OpcUaBackend.Threads.Stages
import OpcUaBackend.Threads.Delivery
import OpcUaBackend.Threads.Progress
import OpcUaBackend.Threads.Sequential
import OpcUaBackend.Threads.Queues
import OpcUaBackend.Threads.Reads
import OpcUaBackend.Threads.Lifetimes
