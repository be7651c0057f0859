import Mathlib.Data.Finmap
import Kapprofiler.Tracing.Events

/-! # Starting and stopping the tracing of a container

The reference counts and kernel filters that `Tracer.StartTraceContainer` and
`Tracer.StopTraceContainer` of `pkg/tracing/tracing.go` keep for each event type.
-/

namespace Kapprofiler.Tracing

/-- The mount namespace filter of a gadget: a hash map with a bounded number of
entries. -/
structure EbpfMap where
  maxEntries : Nat
  entries : Finmap fun _ : UInt64 => UInt32

/-- A put of a new key into a full map fails; the callers ignore the error. -/
def EbpfMap.put (filter : EbpfMap) (mntns : UInt64) (value : UInt32) : EbpfMap :=
  if mntns ∈ filter.entries ∨ filter.entries.keys.card < filter.maxEntries then
    { filter with entries := filter.entries.insert mntns value }
  else filter

/-- The tracer of one event type: a gadget filtered by mount namespace, a tracer
attached to processes, the seccomp tracer that is only peeked, or none. -/
inductive TracingState
  | gadget (usageReferenceCount : UInt64 → Nat) (eBpfContainerFilterMap : EbpfMap)
  | attachable (pids : Finset UInt32)
  | peekable
  | absent

structure Tracer where
  running : Bool
  tracingState : EventType → TracingState

/-- `AllEventType` stands for these five types, in this order. -/
def EventType.traced : EventType → List EventType
  | .allEventType => [.networkEventType, .dnsEventType, .execveEventType,
      .capabilitiesEventType, .openEventType]
  | eventType => [eventType]

/-- `none` is the error "not a tracable event type". -/
def TracingState.start (mntns : UInt64) (pid : UInt32) : TracingState → Option TracingState
  | .gadget count filter =>
      some (.gadget (Function.update count mntns (count mntns + 1)) (filter.put mntns 1))
  | .attachable pids => some (.attachable (insert pid pids))
  | .peekable => none
  | .absent => none

def TracingState.stop (mntns : UInt64) (pid : UInt32) : TracingState → Option TracingState
  | .gadget count filter =>
      if count mntns = 0 then some (.gadget count filter)
      else
        let count' := Function.update count mntns (count mntns - 1)
        some (.gadget count' (if count' mntns = 0 then filter.put mntns 0 else filter))
  | .attachable pids => some (.attachable (pids.erase pid))
  | .peekable => none
  | .absent => none

namespace Tracer

/-- The tracer as `startAppBehaviorTracing` leaves it. -/
def started (maxContainersPerNode : Nat) : Tracer where
  running := true
  tracingState
    | .execveEventType | .openEventType | .capabilitiesEventType | .randomXEventType =>
        .gadget (fun _ => 0) ⟨maxContainersPerNode, ∅⟩
    | .networkEventType | .dnsEventType => .attachable ∅
    | .syscallEventType => .peekable
    | .allEventType => .absent

/-- The loop over the event types returns at the first one that is not tracable
and keeps what it did for the types before it. -/
def forEach (change : TracingState → Option TracingState) (tracer : Tracer) :
    List EventType → Tracer × Bool
  | [] => (tracer, true)
  | eventType :: rest =>
      match change (tracer.tracingState eventType) with
      | some state => forEach change
          { tracer with tracingState := Function.update tracer.tracingState eventType state } rest
      | none => (tracer, false)

/-- The flag is whether the call returned without an error. -/
def startTraceContainer (tracer : Tracer) (mntns : UInt64) (pid : UInt32)
    (eventType : EventType) : Tracer × Bool :=
  if tracer.running then tracer.forEach (TracingState.start mntns pid) eventType.traced
  else (tracer, false)

def stopTraceContainer (tracer : Tracer) (mntns : UInt64) (pid : UInt32)
    (eventType : EventType) : Tracer × Bool :=
  if tracer.running then tracer.forEach (TracingState.stop mntns pid) eventType.traced
  else (tracer, false)

end Tracer

end Kapprofiler.Tracing
