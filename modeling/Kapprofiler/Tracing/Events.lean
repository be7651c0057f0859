/-! # Events reported by the tracers

The event types of `pkg/tracing/events.go`, with the fields that the event sink
and the collector read.
-/

namespace Kapprofiler.Tracing

inductive EventType
  | execveEventType
  | openEventType
  | capabilitiesEventType
  | dnsEventType
  | networkEventType
  | syscallEventType
  | randomXEventType
  | allEventType
  deriving DecidableEq, Repr

/-- The container an event belongs to; the defaults are Go's zero values. -/
structure GeneralEvent where
  containerName : String := ""
  containerID : String := ""
  podName : String := ""
  nameSpace : String := ""
  deriving DecidableEq, Repr

structure ExecveEvent extends GeneralEvent where
  pathName : String
  upperLayer : Bool
  args : List String
  env : List String
  deriving DecidableEq, Repr

structure OpenEvent extends GeneralEvent where
  pathName : String
  flags : List String
  deriving DecidableEq, Repr

structure CapabilitiesEvent extends GeneralEvent where
  syscall : String
  capabilityName : String
  deriving DecidableEq, Repr

structure DnsEvent extends GeneralEvent where
  dnsName : String
  addresses : List String
  deriving DecidableEq, Repr

structure NetworkEvent extends GeneralEvent where
  packetType : String := ""
  protocol : String
  port : UInt16
  dstEndpoint : String
  deriving DecidableEq, Repr

end Kapprofiler.Tracing
