import Mathlib.Data.Multiset.Basic
import Kapprofiler.Collector.Finalizer
import Kapprofiler.EventSink
import Kapprofiler.Foundation.VersionedStore
import Kapprofiler.Tracing.Tracer

/-! # The calls of the collector manager

The state that the calls of `pkg/collector/collector.go` share, and each call as
a sequence of atomic steps: one locked section or one API request at a time.
Between two steps of a call any other call may run.
-/

namespace Kapprofiler.Collector

open Tracing Foundation

/-- The manager's maps, the sink and tracer it drives, the pending container
timers, and the profiles held by the API server. -/
structure World where
  containers : Finmap fun _ : ContainerId => ContainerState
  eventSink : EventSink
  tracer : Tracer
  podMountCache : Finmap fun _ : String => List String
  finalizer : Finalizer
  timers : Multiset ContainerId
  profiles : VersionedStore (String × String) ApplicationProfile

/-- What the outside answers to one call: the cluster it looks objects up in,
the result of the syscall peek, and the API requests that fail. -/
structure Answers where
  cluster : Cluster := .unreachable
  peek : Except String (List String) := .ok []
  getFails : Bool := false
  createFails : Bool := false
  limitPatchFails : Bool := false
  updateFails : Bool := false
  failedPatchFails : Bool := false
  finalPatchFails : Bool := false
  deleteFails : Bool := false

/-- No request fails. -/
structure Answers.Succeed (answers : Answers) : Prop where
  get : answers.getFails = false
  create : answers.createFails = false
  limitPatch : answers.limitPatchFails = false
  update : answers.updateFails = false
  failedPatch : answers.failedPatchFails = false
  finalPatch : answers.finalPatchFails = false
  delete : answers.deleteFails = false

instance : DecidablePred Answers.Succeed := fun answers =>
  decidable_of_iff
    (answers.getFails = false ∧ answers.createFails = false ∧
      answers.limitPatchFails = false ∧ answers.updateFails = false ∧
      answers.failedPatchFails = false ∧ answers.finalPatchFails = false ∧
      answers.deleteFails = false)
    ⟨fun ⟨hget, hcreate, hlimitPatch, hupdate, hfailedPatch, hfinalPatch, hdelete⟩ =>
        ⟨hget, hcreate, hlimitPatch, hupdate, hfailedPatch, hfinalPatch, hdelete⟩,
      fun h => ⟨h.get, h.create, h.limitPatch, h.update, h.failedPatch, h.finalPatch, h.delete⟩⟩

/-- The key of a pod in the mount cache. -/
def mountKey (id : ContainerId) : String := id.podName ++ "-" ++ id.nameSpace

namespace World

def mounts (world : World) (id : ContainerId) : List String :=
  (world.podMountCache.lookup (mountKey id)).getD []

def addFilter (world : World) (id : ContainerId) : World :=
  { world with eventSink := world.eventSink.addFilter ⟨.allEventType, id.containerID⟩ }

def removeFilter (world : World) (id : ContainerId) : World :=
  { world with eventSink := world.eventSink.removeFilter ⟨.allEventType, id.containerID⟩ }

def startTraceContainer (world : World) (id : ContainerId) : World :=
  { world with tracer := (world.tracer.startTraceContainer id.nsMntId id.pid .allEventType).1 }

def stopTraceContainer (world : World) (id : ContainerId) : World :=
  { world with tracer := (world.tracer.stopTraceContainer id.nsMntId id.pid .allEventType).1 }

def markPodNotRecording (world : World) (id : ContainerId) : World :=
  { world with finalizer := world.finalizer.markPodNotRecording id.podName id.nameSpace }

def untrack (world : World) (id : ContainerId) : World :=
  { world with containers := world.containers.erase id }

def startContainerTimer (world : World) (id : ContainerId) : World :=
  { world with timers := id ::ₘ world.timers }

end World

/-! ## ContainerStarted -/

/-- `none` is an error. -/
def doesApplicationProfileExists (config : CollectorManagerConfig) (cluster : Cluster)
    (getProfile : String × String → Option ApplicationProfile) (nameSpace podName : String)
    (checkFinal checkOwner : Bool) : Option Bool := do
  let controllerOf (ownerReferences : List OwnerReference) : Option (String × String) :=
    (ownerReferences.find? fun owner => owner.controller = some true).map
      fun owner => (owner.kind, owner.name)
  let workload ←
    if checkOwner then do
      let pod ← cluster.pods nameSpace podName
      let owner := (controllerOf pod.ownerReferences).getD ("Pod", podName)
      if owner.1 = "ReplicaSet" then do
        let replicaSet ← cluster.replicaSets nameSpace owner.2
        pure ((controllerOf replicaSet.ownerReferences).getD owner)
      else pure owner
    else pure ("Pod", podName)
  let existing ← getProfile (config.profileNamespace nameSpace,
    config.getApplicationProfileName nameSpace workload.1 workload.2)
  if checkFinal ∧ ¬ existing.isFinal then pure false else pure true

def getPodMounts (cluster : Cluster) (podName nameSpace : String) : Option (List String) :=
  (cluster.pods nameSpace podName).map fun pod => pod.containers.flatMap (·.volumeMounts)

inductive StartState
  | checkProfile
  | track
  | fetchMounts
  | startTrace
  | startTimer
  | markRecording
  | setRecording
  | returned
  deriving DecidableEq

/-- One step of `ContainerStarted`; `none` is a panic. -/
def startStep (config : CollectorManagerConfig) (id : ContainerId) (attach : Bool)
    (answers : Answers) (world : World) : StartState → Option (StartState × World)
  | .checkProfile =>
      let getProfile (key : String × String) : Option ApplicationProfile :=
        (request answers.getFails (world.profiles.get key)).map (·.value)
      let appProfileExists := doesApplicationProfileExists config answers.cluster getProfile
        id.nameSpace id.podName true true
      -- An error of the check counts as no profile.
      if appProfileExists = some true ∧ config.recordStrategy = .onlyIfNotExists then
        some (.returned, world)
      else some (.track, world)
  | .track =>
      let state : ContainerState := { running := true, attached := attach }
      some (.fetchMounts,
        World.addFilter { world with containers := world.containers.insert id state } id)
  | .fetchMounts =>
      if mountKey id ∈ world.podMountCache then some (.startTrace, world)
      else
        -- After an error the pod is cached without mounts.
        let mounts := (getPodMounts answers.cluster id.podName id.nameSpace).getD []
        some (.startTrace,
          { world with podMountCache := world.podMountCache.insert (mountKey id) mounts })
  | .startTrace => some (.startTimer, world.startTraceContainer id)
  | .startTimer =>
      if 0 < config.finalizeTime ∧ config.interval < config.finalizeTime then
        some (.markRecording, world.startContainerTimer id)
      else some (.returned, world.startContainerTimer id)
  | .markRecording =>
      if attach then
        match answers.cluster.pods id.nameSpace id.podName with
        -- MarkPodRecording gives up before it sets the mark.
        | none => some (.returned, world)
        | some pod =>
            if pod.ready then
              (world.finalizer.startFinalizationTimer config pod).map fun started =>
                (.setRecording, { world with finalizer := started.2 })
            else some (.setRecording, world)
      else some (.setRecording, world)
  | .setRecording =>
      let finalizer := world.finalizer.setRecording id.podName id.nameSpace
      some (.returned, { world with finalizer := finalizer })
  | .returned => none

/-! ## ContainerStopped -/

/-- Forget the mounts of a pod that has no tracked container left. -/
def dropPodMounts (world : World) (id : ContainerId) : World :=
  if ∃ other ∈ world.containers.keys, other.podName = id.podName ∧
      other.nameSpace = id.nameSpace then world
  else { world with podMountCache := world.podMountCache.erase (mountKey id) }

/-- The whole body runs under the containers' lock. -/
def containerStopped (world : World) (id : ContainerId) : World :=
  if id ∈ world.containers then
    dropPodMounts
      ((((world.markPodNotRecording id).stopTraceContainer id).removeFilter id).untrack id) id
  else world

/-! ## CollectContainerEvents -/

/-- What `loadTotalEvents` reads, in its order: five buckets and the syscalls. -/
inductive EventSource
  | execve
  | opens
  | syscalls
  | capabilities
  | dns
  | network
  deriving DecidableEq

def EventSource.all : List EventSource :=
  [.execve, .opens, .syscalls, .capabilities, .dns, .network]

def ContainerId.bucketOf (id : ContainerId) (kind : String) : String :=
  bucket kind id.nameSpace id.podName id.container

/-- Drain one bucket of the container, or peek its syscalls. -/
def loadEvents (id : ContainerId) (peek : Except String (List String))
    (totalEvents : TotalEvents) (sink : EventSink) : EventSource → TotalEvents × EventSink
  | .execve =>
      let drained := sink.execve.getEvents (id.bucketOf "execve")
      ({ totalEvents with execEvents := drained.1 }, { sink with execve := drained.2 })
  | .opens =>
      let drained := sink.opens.getEvents (id.bucketOf "open")
      ({ totalEvents with openEvents := drained.1 }, { sink with opens := drained.2 })
  | .syscalls =>
      ({ totalEvents with
        syscallEvents := match peek with
          | .ok syscalls => syscalls
          | .error _ => [] }, sink)
  | .capabilities =>
      let drained := sink.capabilities.getEvents (id.bucketOf "capabilities")
      ({ totalEvents with capabilitiesEvents := drained.1 },
        { sink with capabilities := drained.2 })
  | .dns =>
      let drained := sink.dns.getEvents (id.bucketOf "dns")
      ({ totalEvents with dnsEvents := drained.1 }, { sink with dns := drained.2 })
  | .network =>
      let drained := sink.network.getEvents (id.bucketOf "network")
      ({ totalEvents with networkEvents := drained.1 }, { sink with network := drained.2 })

/-- The branch that a pass returns by. -/
inductive PassExit
  | notTracked
  | noEvents
  | created
  | createFailed
  | final
  | updated
  | updateFailed
  deriving DecidableEq

/-- Where a pass is, with its local variables: the container's state as looked
up, the batch loaded so far and what is left to load, the profile built from the
batch, and the stored profile it read. -/
inductive PassState
  | lookup
  | load (state : ContainerState) (remaining : List EventSource) (totalEvents : TotalEvents)
  | get (state : ContainerState) (containerProfile : ContainerProfile)
  | create (state : ContainerState) (containerProfile : ContainerProfile)
  | limitPatch (state : ContainerState) (containerProfile : ContainerProfile)
      (existing : Versioned ApplicationProfile)
  | update (state : ContainerState) (containerProfile : ContainerProfile)
      (existing : Versioned ApplicationProfile)
  | removeFilter (exit : PassExit)
  | stopTrace (exit : PassExit)
  | markNotRecording (exit : PassExit)
  | untrack (exit : PassExit)
  | failedPatch
  | restartTimer (exit : PassExit)
  | returned (exit : PassExit)
  deriving DecidableEq

/-- The labels of a profile created by a pass. -/
def newLabels (config : CollectorManagerConfig) (id : ContainerId) (state : ContainerState)
    (containerProfile : ContainerProfile) : Labels :=
  let labels : Labels := ∅
  let labels := if state.attached then labels.insert partialLabel "true" else labels
  let labels := if maxOpenEvents ≤ containerProfile.opens.length then
    labels.insert failedLabel "true" else labels
  if config.storeNamespace ≠ "" then labels.insert namespaceLabel id.nameSpace else labels

/-- The profile that a pass creates. -/
def newProfile (config : CollectorManagerConfig) (id : ContainerId) (state : ContainerState)
    (containerProfile : ContainerProfile) : ApplicationProfile where
  name := (id.profileKey config).2
  labels := newLabels config id state containerProfile
  spec := ⟨[containerProfile]⟩

/-- A container seen from its start replaces the whole label map of a profile
marked partial. -/
def clearPartial (state : ContainerState) (existing : ApplicationProfile) : ApplicationProfile :=
  if ¬ state.attached ∧ existing.labels.get partialLabel = "true" then
    { existing with labels := (∅ : Labels).insert partialLabel "false" }
  else existing

/-- The profile that a pass writes over the one it read. -/
def mergedProfile (config : CollectorManagerConfig) (mounts : List String)
    (state : ContainerState) (existing : ApplicationProfile)
    (containerProfile : ContainerProfile) : ApplicationProfile :=
  mergeApplicationProfiles config mounts (clearPartial state existing) containerProfile

/-- Clearing the label leaves the containers alone. -/
theorem mergedProfile_containers (config : CollectorManagerConfig) (mounts : List String)
    (state : ContainerState) (existing : ApplicationProfile)
    (containerProfile : ContainerProfile) :
    (mergedProfile config mounts state existing containerProfile).spec.containers =
      mergeContainers config mounts containerProfile existing.spec.containers := by
  unfold mergedProfile clearPartial mergeApplicationProfiles
  split <;> rfl

/-- One step of `CollectContainerEvents`. -/
def collectStep (config : CollectorManagerConfig) (id : ContainerId) (answers : Answers)
    (world : World) : PassState → PassState × World
  | .lookup =>
      match world.containers.lookup id with
      | some state => (.load state EventSource.all {}, world)
      | none => (.returned .notTracked, world)
  | .load state (source :: rest) totalEvents =>
      let loaded := loadEvents id answers.peek totalEvents world.eventSink source
      (.load state rest loaded.1, { world with eventSink := loaded.2 })
  | .load state [] totalEvents =>
      if shouldProcessEvents totalEvents then
        (.get state (buildContainerProfile config (world.mounts id) id.container totalEvents),
          world)
      else (.returned .noEvents, world)
  | .get state containerProfile =>
      -- An error of any kind is taken for a missing profile.
      match request answers.getFails (world.profiles.get (id.profileKey config)) with
      | none => (.create state containerProfile, world)
      | some existing =>
          if existing.value.isFinal then (.removeFilter .final, world)
          else if maxOpenEvents ≤ containerProfile.opens.length then
            (.limitPatch state containerProfile existing, world)
          else (.update state containerProfile existing, world)
  | .create state containerProfile =>
      match request answers.createFails (world.profiles.create (id.profileKey config)
          (newProfile config id state containerProfile)) with
      | some profiles => (.restartTimer .created, { world with profiles := profiles })
      -- The error is only logged.
      | none => (.restartTimer .createFailed, world)
  | .limitPatch state containerProfile existing =>
      match request answers.limitPatchFails (world.profiles.patch (id.profileKey config)
          (ApplicationProfile.mark failedLabel)) with
      | some profiles =>
          (.update state containerProfile existing, { world with profiles := profiles })
      | none => (.update state containerProfile existing, world)
  | .update state containerProfile existing =>
      -- The version presented is that of the get, also after the patch of the limit.
      match request answers.updateFails (world.profiles.update (id.profileKey config)
          (mergedProfile config (world.mounts id) state existing.value containerProfile)
          existing.version) with
      | some profiles => (.restartTimer .updated, { world with profiles := profiles })
      | none => (.removeFilter .updateFailed, world)
  | .removeFilter exit => (.stopTrace exit, world.removeFilter id)
  | .stopTrace exit => (.markNotRecording exit, world.stopTraceContainer id)
  | .markNotRecording exit => (.untrack exit, world.markPodNotRecording id)
  | .untrack exit => (if exit = .final then .returned exit else .failedPatch, world.untrack id)
  | .failedPatch =>
      match request answers.failedPatchFails (world.profiles.patch (id.profileKey config)
          (ApplicationProfile.mark failedLabel)) with
      | some profiles => (.returned .updateFailed, { world with profiles := profiles })
      | none => (.returned .updateFailed, world)
  | .restartTimer exit => (.returned exit, world.startContainerTimer id)
  | .returned exit => (.returned exit, world)

/-! ## Finalization -/

/-- The patch of `finalizePodProfile` and `FinalizeApplicationProfile`. -/
def finalizeProfile (config : CollectorManagerConfig) (answers : Answers) (world : World)
    (nameSpace podName : String) : World :=
  match request answers.finalPatchFails (world.profiles.patch
      (config.podProfileKey nameSpace podName) (ApplicationProfile.mark finalLabel)) with
  | some profiles => { world with profiles := profiles }
  | none => world

/-- The last part of `handlePodDeleteEvent`. -/
def deleteProfile (config : CollectorManagerConfig) (answers : Answers) (world : World)
    (nameSpace podName : String) : World :=
  if answers.deleteFails then world
  else { world with profiles := world.profiles.delete (config.podProfileKey nameSpace podName) }

end Kapprofiler.Collector
