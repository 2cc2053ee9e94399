import Fmq.Lib.Memory
import Fmq.Lib.Cyclic
import Fmq.Lib.RecordRing
import Fmq.Lib.Scatter
import Fmq.Lib.Transition
import Fmq.Lib.Simulation
import Fmq.Lib.SharedFiles
import Fmq.Lib.SizedRecords
import Fmq.Lib.ByteFormats
import Fmq.Lib.Rounding
import Fmq.Lib.Casts
import Fmq.Lib.Segments
import Fmq.Lib.Cutting
import Fmq.Lib.Countdown
import Fmq.Lib.Filling
import Fmq.Lib.TwoDigits
import Fmq.Lib.JsonLibrary
import Fmq.Lib.BoundedFifo
import Fmq.Model.Base
import Fmq.Model.Transaction
import Fmq.Model.Queue
import Fmq.Model.Geometry
import Fmq.Model.Calls
import Fmq.Model.Descriptor
import Fmq.Model.Construction
import Fmq.Model.Mappings
import Fmq.Model.Export
import Fmq.Model.Conversion
import Fmq.Model.Codec
import Fmq.Model.Ledger
import Fmq.Model.MappedCalls
import Fmq.Model.Endpoints
import Fmq.Model.Synchronized
import Fmq.Model.Unsynchronized
import Fmq.Model.WholeCalls
import Fmq.Model.Attachments
import Fmq.Model.EventFlag
import Fmq.Model.Notifications
import Fmq.Model.Clocked
import Fmq.Model.Deadline
import Fmq.Model.Blocking
import Fmq.Model.Concurrent
import Fmq.Model.BlockingStreams
import Fmq.Model.SharedMemory
import Fmq.Model.Ownership
import Fmq.Model.NamedSharing
import Fmq.Model.OneCall
import Fmq.Model.Timeouts
import Fmq.Properties.Regions
import Fmq.Properties.Copies
import Fmq.Properties.Chunks
import Fmq.Properties.MappedCalls
import Fmq.Properties.Counters
import Fmq.Properties.Fifo
import Fmq.Properties.WrapAround
import Fmq.Properties.Callable
import Fmq.Properties.Concurrent
import Fmq.Properties.SyncStream
import Fmq.Properties.Lagging
import Fmq.Properties.Broadcast
import Fmq.Properties.Batching
import Fmq.Properties.WholeWrites
import Fmq.Properties.Attachments
import Fmq.Properties.TornRead
import Fmq.Properties.Sleepers
import Fmq.Properties.Conservation
import Fmq.Properties.WaitSteps
import Fmq.Properties.BlockingCalls
import Fmq.Properties.LostWakeup
import Fmq.Properties.MissedWakeup
import Fmq.Properties.Accepted
import Fmq.Properties.Division
import Fmq.Properties.Layout
import Fmq.Properties.Mappings
import Fmq.Properties.HandleIndices
import Fmq.Properties.Export
import Fmq.Properties.Codec
import Fmq.Properties.Undecoded
import Fmq.Properties.Rejection
import Fmq.Properties.NamedRegions
import Fmq.Lib.JsonTree
import Fmq.Lib.Linearizability
import Fmq.Lib.Ownership
import Fmq.Lib.ByteCopies
import Fmq.Properties.Extents
import Fmq.Properties.Overlap
import Fmq.Properties.Requests
import Fmq.Properties.Ranges
import Fmq.Properties.Availability
import Fmq.Properties.AllOrNothing
import Fmq.Properties.Timeouts
import Fmq.Properties.Conversion
import Fmq.Properties.Deadline
import Fmq.Properties.Arguments
import Fmq.Properties.Rebuilding
import Fmq.Properties.BlockingStreams
import Fmq.Properties.Deadlock
import Fmq.Properties.SharedMemory
import Fmq.Properties.OneFifo
import Fmq.Properties.NamedSharing
import Fmq.Properties.Ownership
import Fmq.Properties.Tracking
import Fmq.Model.Parcel
import Fmq.Properties.Parcel
import Fmq.Model.ParcelSharing
import Fmq.Properties.ParcelSharing
