import Kapprofiler.Foundation.Machine
import Kapprofiler.Foundation.VersionedStore
import Kapprofiler.Foundation.AppendWhen
import Kapprofiler.Foundation.AppendNew
import Kapprofiler.Foundation.KeyedMerge
import Kapprofiler.Foundation.Segments
import Kapprofiler.Foundation.Slices
import Kapprofiler.Foundation.Continuation
import Kapprofiler.Foundation.TrailingRun
import Kapprofiler.Tracing.Tracer
import Kapprofiler.Tracing.KernelFilter
import Kapprofiler.Tracing.ReferenceCounts
import Kapprofiler.Tracing.FilterCapacity
import Kapprofiler.Tracing.Attachment
import Kapprofiler.Tracing.StartFailures
import Kapprofiler.Tracing.Startup
import Kapprofiler.Tracing.Randomx
import Kapprofiler.Tracing.RandomxAlerts
import Kapprofiler.Tracing.RandomxOrder
import Kapprofiler.SliceMapDB
import Kapprofiler.DatabaseReaders
import Kapprofiler.EventSink
import Kapprofiler.EventIsolation
import Kapprofiler.EventFilters
import Kapprofiler.EventDelivery
import Kapprofiler.SinkShutdown
import Kapprofiler.Collector.Scheduling
import Kapprofiler.Collector.Copies
import Kapprofiler.Collector.FailedWrites
import Kapprofiler.Collector.PassLabels
import Kapprofiler.Collector.Sessions
import Kapprofiler.Collector.Capabilities
import Kapprofiler.Collector.Batching
import Kapprofiler.Collector.Dns
import Kapprofiler.Collector.SizeLimits
import Kapprofiler.Collector.Truncation
import Kapprofiler.Collector.MergeFrame
import Kapprofiler.Collector.Duplicates
import Kapprofiler.Collector.OpenCoverage
import Kapprofiler.Collector.MountFilter
import Kapprofiler.Collector.Overlap
import Kapprofiler.Collector.SelfConflict
import Kapprofiler.Collector.Stopping
import Kapprofiler.Collector.FinalizationTimers
import Kapprofiler.Collector.SingleTimer
import Kapprofiler.Collector.FinalizationDelay
import Kapprofiler.Collector.Tracking
import Kapprofiler.Collector.Recording
import Kapprofiler.Collector.MountCache
import Kapprofiler.Collector.PodTables
import Kapprofiler.Collector.DeletedPods
import Kapprofiler.Collector.Balance
import Kapprofiler.Collector.PartialMark
import Kapprofiler.Collector.Growth
import Kapprofiler.Collector.Entries
import Kapprofiler.Collector.Evidence
import Kapprofiler.Collector.Provenance
import Kapprofiler.Collector.CollectionLoops
import Kapprofiler.Collector.FinalMarks
import Kapprofiler.Collector.FinalizationOff
import Kapprofiler.Collector.LockedSections
import Kapprofiler.Collector.Node
import Kapprofiler.Collector.RandomxUnused
import Kapprofiler.Collector.Accounting
import Kapprofiler.Controller.Handler
import Kapprofiler.Controller.System
import Kapprofiler.Controller.Immutability
import Kapprofiler.Controller.ProfileNames
import Kapprofiler.Controller.NameRecovery
import Kapprofiler.Controller.MergedContainers
import Kapprofiler.Controller.MergeEqualities
import Kapprofiler.Controller.Handling
import Kapprofiler.Controller.Rehandling
import Kapprofiler.Controller.PartialSiblings
import Kapprofiler.Controller.Dispatch
import Kapprofiler.Controller.OwnPods
import Kapprofiler.Controller.Agreement
import Kapprofiler.Controller.Entries
import Kapprofiler.Controller.Convergence
import Kapprofiler.Watch.Loop
import Kapprofiler.Watch.PreList
import Kapprofiler.Watch.Resume
import Kapprofiler.Watch.Stop
import Kapprofiler.Watch.ResumeVersion
import Kapprofiler.Configuration
import Kapprofiler.Installation
