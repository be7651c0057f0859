import Kapprofiler.Collector.Manager
import Kapprofiler.Foundation.Machine

/-! # The collector as a machine

All calls of a collector manager, interleaved step by step with the event sink,
the expiry of its timers and the pod events of the finalizer.
-/

namespace Kapprofiler.Collector

open Foundation

/-- A call of the manager and where it is. The last two make one request each:
the final mark of `finalizePodProfile` or `FinalizeApplicationProfile`, and the
deletion of a deleted pod's profile. -/
inductive Call
  | containerStarted (id : ContainerId) (attach : Bool) (state : StartState)
  | collectContainerEvents (id : ContainerId) (state : PassState)
  | finalizeProfile (nameSpace podName : String) (returned : Bool)
  | deleteProfile (nameSpace podName : String) (returned : Bool)
  deriving DecidableEq

/-- The container that a call starts or collects. -/
def Call.container : Call → Option ContainerId
  | .containerStarted id _ _ => some id
  | .collectContainerEvents id _ => some id
  | _ => none

def Call.running : Call → Bool
  | .containerStarted _ _ .returned => false
  | .collectContainerEvents _ (.returned _) => false
  | .finalizeProfile _ _ true => false
  | .deleteProfile _ _ true => false
  | _ => true

/-- Calls are named by the order in which they were made; a call that returned
keeps its place. -/
structure System where
  world : World
  calls : List Call

inductive Label
  | containerStarted (id : ContainerId) (attach : Bool)
  | containerStopped (id : ContainerId)
  | timerExpired (id : ContainerId)
  | advance (call : Nat) (answers : Answers)
  | sink (op : EventSink.Op)
  | podAdded (pod : Pod)
  | podUpdated (pod : Pod)
  | podDeleted (pod : Pod)
  | finalizationTimerExpired (timer : Nat)
  | finalizeApplicationProfile (id : ContainerId)

/-- The next state of a call and of the world. -/
def Call.step (config : CollectorManagerConfig) (answers : Answers) (world : World) :
    Call → Option (Call × World)
  | .containerStarted id attach state =>
      (startStep config id attach answers world state).map fun next =>
        (.containerStarted id attach next.1, next.2)
  | .collectContainerEvents _ (.returned _) => none
  | .collectContainerEvents id state =>
      let next := collectStep config id answers world state
      some (.collectContainerEvents id next.1, next.2)
  | .finalizeProfile nameSpace podName false =>
      some (.finalizeProfile nameSpace podName true,
        Collector.finalizeProfile config answers world nameSpace podName)
  | .finalizeProfile _ _ true => none
  | .deleteProfile nameSpace podName false =>
      some (.deleteProfile nameSpace podName true,
        Collector.deleteProfile config answers world nameSpace podName)
  | .deleteProfile _ _ true => none

def System.launch (system : System) (call : Call) : System :=
  { system with calls := system.calls ++ [call] }

def System.withFinalizer (system : System) (finalizer : Finalizer) : System :=
  { system with world := { system.world with finalizer := finalizer } }

def step (config : CollectorManagerConfig) (system : System) : Label → Option System
  | .containerStarted id attach =>
      some (system.launch (.containerStarted id attach .checkProfile))
  | .containerStopped id =>
      some (System.launch { system with world := Collector.containerStopped system.world id }
        (.collectContainerEvents id .lookup))
  | .timerExpired id =>
      if id ∈ system.world.timers then
        some (System.launch { system with
          world := { system.world with timers := system.world.timers.erase id } }
          (.collectContainerEvents id .lookup))
      else none
  | .advance call answers =>
      (system.calls[call]?).bind fun current =>
        (current.step config answers system.world).map fun next =>
          { world := next.2, calls := system.calls.set call next.1 }
  | .sink op =>
      (system.world.eventSink.step op).map fun sink =>
        { system with world := { system.world with eventSink := sink } }
  | .podAdded pod =>
      (system.world.finalizer.handlePodAddEvent config pod).map system.withFinalizer
  | .podUpdated pod =>
      (system.world.finalizer.handlePodUpdateEvent config pod).map system.withFinalizer
  | .podDeleted pod =>
      some ((system.withFinalizer
        (system.world.finalizer.stopTimer pod.name pod.nameSpace)).launch
          (.deleteProfile pod.nameSpace pod.name false))
  | .finalizationTimerExpired timer =>
      (system.world.finalizer.timers timer).map fun pod =>
        (system.withFinalizer (system.world.finalizer.expire timer)).launch
          (.finalizeProfile pod.nameSpace pod.name false)
  | .finalizeApplicationProfile id =>
      if id ∈ system.world.containers then
        some (system.launch (.finalizeProfile id.nameSpace id.podName false))
      else some system

/-- A manager that has just been started: nothing is tracked, cached or armed.
The sink, the tracer and the stored profiles are whatever they are. -/
def Initial (system : System) : Prop :=
  system.world.containers = ∅ ∧ system.world.podMountCache = ∅ ∧ system.world.timers = 0 ∧
    system.world.finalizer = .empty ∧ system.calls = []

/-- The machine of a manager with the given configuration. -/
def machine (config : CollectorManagerConfig) : Machine System Label where
  init := Initial
  step := step config

/-! ## A concrete manager -/

/-- The configuration of `main`. -/
def mainConfig : CollectorManagerConfig where
  interval := 60
  finalizeTime := 80
  finalizeJitter := 10
  recordStrategy := .onlyIfNotExists
  ignoreMounts := false
  ignorePrefixes := []
  storeNamespace := ""

/-- A manager that has just been started on a cluster without profiles. -/
def freshSystem : System where
  world :=
    { containers := ∅
      eventSink := .new true
      tracer := .started 1024
      podMountCache := ∅
      finalizer := .empty
      timers := 0
      profiles := .empty }
  calls := []

theorem initial_freshSystem : Initial freshSystem := ⟨rfl, rfl, rfl, rfl, rfl⟩

def nginx : ContainerId where
  nameSpace := "default"
  podName := "nginx"
  container := "app"
  containerID := "1234567890"
  nsMntId := 1
  pid := 1

def shellEvent : Tracing.ExecveEvent where
  containerName := "app"
  containerID := "1234567890"
  podName := "nginx"
  nameSpace := "default"
  pathName := "/bin/sh"
  upperLayer := false
  args := []
  env := []

/-- The container runs a shell, and the event reaches its bucket. -/
def shellRun : List Label := [.sink (.sendExecveEvent shellEvent), .sink .execveEventWorker]

/-- The container is started and runs a shell. -/
def recordingRun : List Label :=
  .containerStarted nginx false :: List.replicate 7 (.advance 0 {}) ++ shellRun

end Kapprofiler.Collector
