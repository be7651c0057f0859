import Kapprofiler.EventSink
import Kapprofiler.Tracing.Randomx
import Kapprofiler.Tracing.Startup

/-! # The callbacks of the gadgets

`pkg/tracing/ig.go` turns what a gadget reports into an event of the tracer and sends it to
the sinks. A call that failed is dropped, an error is reported, and an exec without arguments
kills the process.
-/

namespace Kapprofiler.Tracing

open Randomx (MessageType)

/-- What a gadget says of every event: its type, the message of one that is no event, the
container that the gadget library found for it, and its namespaces. -/
structure GadgetData where
  type : MessageType
  message : String := ""
  common : GeneralEvent := {}
  mountNsID : UInt64 := 0
  netNsID : UInt64 := 0

structure TracerExecEvent extends GadgetData where
  retval : Int
  args : List String
  upperLayer : Bool

structure TracerOpenEvent extends GadgetData where
  ret : Int
  fullPath : String
  flags : List String

structure TracerCapabilitiesEvent extends GadgetData where
  syscall : String
  capName : String

structure TracerDnsEvent extends GadgetData where
  dnsName : String
  addresses : List String

/-- `dstEndpoint` is the endpoint as its `String` method writes it. -/
structure TracerNetworkEvent extends GadgetData where
  pktType : String
  proto : String
  port : UInt16
  dstEndpoint : String

/-- The container collection of the gadget library, which fills in the container of a
namespace. -/
structure Enricher where
  enrichByMntNs : UInt64 → GeneralEvent → GeneralEvent
  enrichByNetNs : UInt64 → GeneralEvent → GeneralEvent

/-- What a callback does with each sink: an event of the randomx gadget is dropped by it, and
an error is logged. -/
inductive Callback
  | send (op : EventSink.Op)
  | sendRandomXEvent
  | reportError (eventType : EventType) (err : String)
  | nothing

/-- The branch for what is no event that counts. -/
def GadgetData.otherwise (data : GadgetData) (eventType : EventType) (name : String) : Callback :=
  if data.type = .err then .reportError eventType (name ++ " ebpf error: " ++ data.message)
  else .nothing

/-- `none` is the panic of `event.Args[0]`. -/
def execEventCallback (event : TracerExecEvent) : Option Callback :=
  if event.type = .normal ∧ -1 < event.retval then
    match event.args with
    | [] => none
    | pathName :: args => some (.send (.sendExecveEvent { event.common with
        pathName := pathName, upperLayer := event.upperLayer, args := args, env := [] }))
  else some (event.otherwise .execveEventType "execve")

def openEventCallback (event : TracerOpenEvent) : Callback :=
  if event.type = .normal ∧ -1 < event.ret then
    .send (.sendOpenEvent { event.common with pathName := event.fullPath, flags := event.flags })
  else event.otherwise .openEventType "open"

def capabilitiesEventCallback (event : TracerCapabilitiesEvent) : Callback :=
  if event.type = .normal then
    .send (.sendCapabilitiesEvent { event.common with
      syscall := event.syscall, capabilityName := event.capName })
  else event.otherwise .capabilitiesEventType "capabilities"

section Enriched

variable (enrich : Enricher)

/-- The dns and network gadgets run in the network namespace; the container is filled in from
the mount namespace first and from the network namespace last. -/
def Enricher.enriched (data : GadgetData) : GeneralEvent :=
  enrich.enrichByNetNs data.netNsID (enrich.enrichByMntNs data.mountNsID data.common)

def dnsEventCallback (event : TracerDnsEvent) : Callback :=
  if event.type = .normal then
    .send (.sendDnsEvent { enrich.enriched event.toGadgetData with
      dnsName := event.dnsName, addresses := event.addresses })
  else event.otherwise .dnsEventType "dns"

def networkEventCallback (event : TracerNetworkEvent) : Callback :=
  if event.type = .normal then
    .send (.sendNetworkEvent { enrich.enriched event.toGadgetData with
      packetType := event.pktType, protocol := event.proto, port := event.port
      dstEndpoint := event.dstEndpoint })
  else event.otherwise .networkEventType "network"

end Enriched

def randomxEventCallback (event : Randomx.Event) : Callback :=
  if event.type = .normal then .sendRandomXEvent
  else if event.type = .err then
    .reportError .randomXEventType ("randomx ebpf error: " ++ event.message)
  else .nothing

/-- Something that a gadget reports. -/
inductive GadgetEvent
  | exec (event : TracerExecEvent)
  | opened (event : TracerOpenEvent)
  | capabilities (event : TracerCapabilitiesEvent)
  | dns (event : TracerDnsEvent)
  | network (event : TracerNetworkEvent)
  | randomx (event : Randomx.Event)

/-- `none` is a panic. -/
def GadgetEvent.callback (enrich : Enricher) : GadgetEvent → Option Callback
  | .exec event => execEventCallback event
  | .opened event => some (openEventCallback event)
  | .capabilities event => some (capabilitiesEventCallback event)
  | .dns event => some (dnsEventCallback enrich event)
  | .network event => some (networkEventCallback enrich event)
  | .randomx event => some (randomxEventCallback event)

/-! ## What a callback sends -/

theorem GadgetData.otherwise_ne_send (data : GadgetData) (eventType : EventType) (name : String)
    (op : EventSink.Op) : data.otherwise eventType name ≠ .send op := by
  unfold GadgetData.otherwise
  split <;> exact Callback.noConfusion

/-- A callback sends in its first branch only. -/
theorem GadgetData.send_of_ite {counts : Prop} [Decidable counts] {sent op : EventSink.Op}
    {data : GadgetData} {eventType : EventType} {name : String}
    (hsend : (if counts then .send sent else data.otherwise eventType name) = Callback.send op) :
    counts ∧ op = sent := by
  split at hsend
  next hcounts => exact ⟨hcounts, (Callback.send.inj hsend).symm⟩
  next => exact absurd hsend (data.otherwise_ne_send eventType name op)

/-- An exec is sent if it succeeded; its first argument is the path. -/
theorem execEventCallback_send {event : TracerExecEvent} {op : EventSink.Op}
    (hsend : execEventCallback event = some (.send op)) :
    event.type = .normal ∧ -1 < event.retval ∧ ∃ pathName args,
      event.args = pathName :: args ∧ op = .sendExecveEvent { event.common with
        pathName := pathName, upperLayer := event.upperLayer, args := args, env := [] } := by
  unfold execEventCallback at hsend
  split at hsend
  next hcounts =>
    split at hsend
    · cases hsend
    next pathName args hargs =>
      obtain rfl := Callback.send.inj (Option.some.inj hsend)
      exact ⟨hcounts.1, hcounts.2, pathName, args, hargs, rfl⟩
  next => exact absurd (Option.some.inj hsend) (event.otherwise_ne_send _ _ op)

theorem randomxEventCallback_ne_send (event : Randomx.Event) (op : EventSink.Op) :
    randomxEventCallback event ≠ .send op := by
  unfold randomxEventCallback
  split
  · exact Callback.noConfusion
  · split <;> exact Callback.noConfusion

end Kapprofiler.Tracing
