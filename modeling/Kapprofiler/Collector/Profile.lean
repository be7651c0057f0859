import Kapprofiler.Collector.Types
import Kapprofiler.Foundation.AppendWhen

/-! # Building and merging container profiles

The data part of `CollectContainerEvents`: the container profile built from one
drained batch, and `mergeApplicationProfiles`, which folds such a profile into
the profile read from the API server.
-/

namespace Kapprofiler.Collector

open Tracing Foundation

inductive RecordStrategy
  | always
  | onlyIfNotExists
  deriving DecidableEq, Repr

structure CollectorManagerConfig where
  /-- Seconds between two collections of a container. -/
  interval : UInt64
  finalizeTime : UInt64
  finalizeJitter : UInt64
  recordStrategy : RecordStrategy
  ignoreMounts : Bool
  ignorePrefixes : List String
  storeNamespace : String
  deriving DecidableEq, Repr

def maxOpenEvents : Nat := 10000
def maxNetworkEvents : Nat := 10000

structure TotalEvents where
  execEvents : List ExecveEvent := []
  openEvents : List OpenEvent := []
  syscallEvents : List String := []
  capabilitiesEvents : List CapabilitiesEvent := []
  dnsEvents : List DnsEvent := []
  networkEvents : List NetworkEvent := []
  deriving DecidableEq, Repr

def shouldProcessEvents (totalEvents : TotalEvents) : Bool :=
  0 < totalEvents.execEvents.length ∨ 0 < totalEvents.openEvents.length ∨
    0 < totalEvents.syscallEvents.length ∨ 0 < totalEvents.capabilitiesEvents.length ∨
    0 < totalEvents.dnsEvents.length ∨ 0 < totalEvents.networkEvents.length

/-! ## Membership tests -/

def execEventExists (execEvent : ExecveEvent) (execCalls : List ExecCalls) : Bool :=
  execCalls.any fun call => execEvent.pathName = call.path ∧ execEvent.args = call.args ∧
    execEvent.env = call.envs ∧ execEvent.upperLayer = call.upperLayer

def networkEventExists (networkEvent : NetworkEvent) (networkCalls : List NetworkCalls) : Bool :=
  networkCalls.any fun call => networkEvent.dstEndpoint = call.dstEndpoint ∧
    networkEvent.port = call.port ∧ networkEvent.protocol = call.protocol

def dnsEventExists (dnsEvent : DnsEvent) (dnsCalls : List DnsCalls) : Bool :=
  -- The source appends missing addresses to `call`, the copy made by `range`;
  -- the copy is dropped on return, so the caller only sees the answer.
  dnsCalls.any fun call => dnsEvent.dnsName = call.dnsName

/-- Whether some entry has the path, and whether one of these has all flags. -/
def openEventExists (openEvent : OpenEvent) (openEvents : List OpenCalls) : Bool × Bool :=
  (openEvents.any fun element => element.path = openEvent.pathName,
    openEvents.any fun element => element.path = openEvent.pathName ∧
      openEvent.flags.all (· ∈ element.flags))

/-- `strings.HasPrefix`. -/
def hasPrefix (s start : String) : Bool := start.toList.isPrefixOf s.toList

def shouldIncludeOpenEvent (config : CollectorManagerConfig) (mounts : List String)
    (openEvents : List OpenCalls) (openEvent : OpenEvent) : Bool :=
  if maxOpenEvents < openEvents.length then false
  else if config.ignorePrefixes.any (hasPrefix openEvent.pathName) then false
  else if (openEventExists openEvent openEvents).1 ∧ (openEventExists openEvent openEvents).2 then
    false
  else if config.ignoreMounts ∧ mounts.any (hasPrefix openEvent.pathName) then false
  else true

/-! ## One batch -/

def ExecCalls.ofEvent (event : ExecveEvent) : ExecCalls where
  path := event.pathName
  upperLayer := event.upperLayer
  args := event.args
  envs := event.env

def NetworkCalls.ofEvent (event : NetworkEvent) : NetworkCalls where
  protocol := event.protocol
  port := event.port
  dstEndpoint := event.dstEndpoint

def OpenCalls.ofEvent (event : OpenEvent) : OpenCalls where
  path := event.pathName
  flags := event.flags

def DnsCalls.ofEvent (event : DnsEvent) : DnsCalls where
  dnsName := event.dnsName
  addresses := event.addresses

/-- Some execve events have no path name; these are not deduplicated. -/
def addExec : List ExecCalls → ExecveEvent → List ExecCalls :=
  appendWhen (fun execs event => !execEventExists event execs || event.pathName = "")
    ExecCalls.ofEvent

def addDns : List DnsCalls → DnsEvent → List DnsCalls :=
  appendWhen (fun dns event => !dnsEventExists event dns) DnsCalls.ofEvent

/-- Extend the first entry of the event's syscall, or append a new one. -/
def addCapability : List CapabilitiesCalls → CapabilitiesEvent → List CapabilitiesCalls
  | [], event => [⟨[event.capabilityName], event.syscall⟩]
  | capability :: rest, event =>
      if capability.syscall = event.syscall then
        (if event.capabilityName ∈ capability.capabilities then capability
          else { capability with
            capabilities := capability.capabilities ++ [event.capabilityName] }) :: rest
      else capability :: addCapability rest event

def addOpen (config : CollectorManagerConfig) (mounts : List String) :
    List OpenCalls → OpenEvent → List OpenCalls :=
  appendWhen (shouldIncludeOpenEvent config mounts) OpenCalls.ofEvent

/-- `PacketType` selects the direction. -/
def addConnection (packetType : String) : List NetworkCalls → NetworkEvent → List NetworkCalls :=
  appendWhen (fun calls event => event.packetType = packetType && !networkEventExists event calls)
    NetworkCalls.ofEvent

/-- The container profile that one drained batch amounts to. -/
def buildContainerProfile (config : CollectorManagerConfig) (mounts : List String)
    (container : String) (totalEvents : TotalEvents) : ContainerProfile where
  name := container
  sysCalls := totalEvents.syscallEvents
  execs := totalEvents.execEvents.foldl addExec []
  dns := totalEvents.dnsEvents.foldl addDns []
  capabilities := totalEvents.capabilitiesEvents.foldl addCapability []
  opens := totalEvents.openEvents.foldl (addOpen config mounts) []
  networkActivity :=
    { incoming := totalEvents.networkEvents.foldl (addConnection "HOST") []
      outgoing := totalEvents.networkEvents.foldl (addConnection "OUTGOING") [] }

/-! ## Merging -/

def ExecCalls.toEvent (exec : ExecCalls) : ExecveEvent where
  pathName := exec.path
  upperLayer := exec.upperLayer
  args := exec.args
  env := exec.envs

def NetworkCalls.toEvent (call : NetworkCalls) : NetworkEvent where
  protocol := call.protocol
  port := call.port
  dstEndpoint := call.dstEndpoint

def OpenCalls.toEvent (call : OpenCalls) : OpenEvent where
  pathName := call.path
  flags := call.flags

def DnsCalls.toEvent (dns : DnsCalls) : DnsEvent where
  dnsName := dns.dnsName
  addresses := dns.addresses

/-- Every append starts from `existing`, the copy taken before the loop, so each
one replaces what the previous one added. -/
def mergeCapabilityNames (existing new : List String) : List String :=
  new.foldl (fun merged cap => if cap ∈ existing then merged else existing ++ [cap]) existing

/-- Merge into the first entry of the syscall, if there is one. -/
def mergeCapability (capability : CapabilitiesCalls) :
    List CapabilitiesCalls → List CapabilitiesCalls
  | [] => []
  | existing :: rest =>
      if existing.syscall = capability.syscall then
        { existing with capabilities :=
            mergeCapabilityNames existing.capabilities capability.capabilities } :: rest
      else existing :: mergeCapability capability rest

/-- An entry of a known syscall is merged in place, any other is kept for appending. -/
def placeCapability (merged : List CapabilitiesCalls × List CapabilitiesCalls)
    (capability : CapabilitiesCalls) : List CapabilitiesCalls × List CapabilitiesCalls :=
  if merged.1.any fun existing => existing.syscall = capability.syscall then
    (mergeCapability capability merged.1, merged.2)
  else (merged.1, merged.2 ++ [capability])

def mergeCapabilities (existing new : List CapabilitiesCalls) : List CapabilitiesCalls :=
  (new.foldl placeCapability (existing, [])).1 ++ (new.foldl placeCapability (existing, [])).2

/-- Unlike the other lists, the connections are appended one by one, up to the limit. -/
def mergeConnections : List NetworkCalls → List NetworkCalls → List NetworkCalls :=
  List.foldl (appendWhen (fun calls call => calls.length < maxNetworkEvents &&
    !networkEventExists call.toEvent calls) id)

def mergeContainerProfile (config : CollectorManagerConfig) (mounts : List String)
    (existing new : ContainerProfile) : ContainerProfile where
  name := existing.name
  sysCalls := existing.sysCalls ++ new.sysCalls.filter fun syscall =>
    syscall ∉ existing.sysCalls
  execs := existing.execs ++ new.execs.filter fun exec =>
    !execEventExists exec.toEvent existing.execs
  dns := existing.dns ++ new.dns.filter fun dns => !dnsEventExists dns.toEvent existing.dns
  capabilities := mergeCapabilities existing.capabilities new.capabilities
  opens := existing.opens ++ new.opens.filter fun call =>
    shouldIncludeOpenEvent config mounts existing.opens call.toEvent
  networkActivity :=
    { incoming := mergeConnections existing.networkActivity.incoming
        new.networkActivity.incoming
      outgoing := mergeConnections existing.networkActivity.outgoing
        new.networkActivity.outgoing }

/-- Merge into the first container of that name, or append a new one. -/
def mergeContainers (config : CollectorManagerConfig) (mounts : List String)
    (containerProfile : ContainerProfile) : List ContainerProfile → List ContainerProfile
  | [] => [containerProfile]
  | existing :: rest =>
      if existing.name = containerProfile.name then
        mergeContainerProfile config mounts existing containerProfile :: rest
      else existing :: mergeContainers config mounts containerProfile rest

def mergeApplicationProfiles (config : CollectorManagerConfig) (mounts : List String)
    (existing : ApplicationProfile) (containerProfile : ContainerProfile) : ApplicationProfile :=
  { existing with
    spec := ⟨mergeContainers config mounts containerProfile existing.spec.containers⟩ }

/-! ## Names -/

/-- `strings.ToLower`. -/
def toLower (s : String) : String := String.ofList (s.toList.map Char.toLower)

def CollectorManagerConfig.getApplicationProfileName (config : CollectorManagerConfig)
    (nameSpace kind name : String) : String :=
  if config.storeNamespace ≠ "" then toLower kind ++ "-" ++ toLower name ++ "-" ++ nameSpace
  else toLower kind ++ "-" ++ toLower name

/-- The namespace in which the profiles of a namespace's pods are stored. -/
def CollectorManagerConfig.profileNamespace (config : CollectorManagerConfig)
    (nameSpace : String) : String :=
  if config.storeNamespace ≠ "" then config.storeNamespace else nameSpace

/-- Namespace and name of the profile of a pod. -/
def CollectorManagerConfig.podProfileKey (config : CollectorManagerConfig)
    (nameSpace podName : String) : String × String :=
  (config.profileNamespace nameSpace, config.getApplicationProfileName nameSpace "pod" podName)

def ContainerId.profileKey (config : CollectorManagerConfig) (id : ContainerId) :
    String × String :=
  config.podProfileKey id.nameSpace id.podName

end Kapprofiler.Collector
