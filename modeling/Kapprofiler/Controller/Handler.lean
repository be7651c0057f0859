import Kapprofiler.Controller.Merge

/-! # Handling an application profile event

`handleApplicationProfile` of `pkg/controller/controller.go`, one API request at a
time. A replicaset's profile is handed on to the deployment that owns it; a pod's
profile makes the controller merge the profiles of all pods of its workload.
-/

namespace Kapprofiler.Controller

open Collector Foundation

/-- The unstructured object of an event. -/
structure ProfileEvent where
  nameSpace : String
  profile : ApplicationProfile

/-- The workloads that profiles are written for. -/
inductive WorkloadKind
  | deployment
  | replicaSet
  | daemonSet
  | statefulSet
  | cronJob
  | job
  deriving DecidableEq

/-- The kind as it stands in the name of a profile. -/
def WorkloadKind.name : WorkloadKind → String
  | .deployment => "deployment"
  | .replicaSet => "replicaset"
  | .daemonSet => "daemonset"
  | .statefulSet => "statefulset"
  | .cronJob => "cronjob"
  | .job => "job"

/-- The switch over the kind of a pod's owner. -/
def WorkloadKind.ofOwner : String → Option WorkloadKind
  | "ReplicaSet" => some .replicaSet
  | "DaemonSet" => some .daemonSet
  | "StatefulSet" => some .statefulSet
  | "CronJob" => some .cronJob
  | "Job" => some .job
  | _ => none

/-- Deployments are not looked up: they are known by the owner of a replica set. -/
def getWorkload (cluster : Cluster) (nameSpace name : String) : WorkloadKind → Option Workload
  | .deployment => none
  | .replicaSet => cluster.replicaSets nameSpace name
  | .daemonSet => cluster.daemonSets nameSpace name
  | .statefulSet => cluster.statefulSets nameSpace name
  | .cronJob => cluster.cronJobs nameSpace name
  | .job => cluster.jobs nameSpace name

/-! ## Names -/

/-- `strings.TrimSuffix`. -/
def trimSuffix (s suffix : String) : String :=
  if suffix.toList.isSuffixOf s.toList then
    String.ofList (s.toList.take (s.toList.length - suffix.toList.length))
  else s

/-- Namespace and name of the object that the profile of the event belongs to. -/
def objectOf (storeNamespace : String) (event : ProfileEvent) : String × String :=
  -- strings.Join(strings.Split(name, "-")[1:], "-")
  let objectName := String.ofList
    (['-'].intercalate ((event.profile.name.toList.splitOn '-').drop 1))
  if storeNamespace = "" then (event.nameSpace, objectName)
  else
    let nameSpace := event.profile.labels.get namespaceLabel
    (nameSpace, trimSuffix objectName ("-" ++ nameSpace))

/-- Namespace and name of the profile of an object. -/
def profileKey (storeNamespace kind name nameSpace : String) : String × String :=
  if storeNamespace ≠ "" then (storeNamespace, kind ++ "-" ++ name ++ "-" ++ nameSpace)
  else (nameSpace, kind ++ "-" ++ name)

/-! ## Writing the profile of a workload -/

/-- The profile that a handler has computed for a workload. -/
structure Plan where
  kind : WorkloadKind
  name : String
  nameSpace : String
  labels : Labels
  containers : List ContainerProfile

def Plan.key (storeNamespace : String) (plan : Plan) : String × String :=
  profileKey storeNamespace plan.kind.name plan.name plan.nameSpace

/-- The profile that is created for the workload. -/
def Plan.newProfile (storeNamespace : String) (plan : Plan) : ApplicationProfile where
  name := (plan.key storeNamespace).2
  labels := plan.labels
  spec := ⟨plan.containers⟩

/-- The merge patch: its labels are set over the stored ones, its containers replace
the stored ones. -/
def Plan.mergePatch (plan : Plan) (existing : ApplicationProfile) : ApplicationProfile :=
  { existing with
    labels := plan.labels ∪ existing.labels
    spec := ⟨plan.containers⟩ }

/-! ## The handler -/

/-- What the outside answers to one request: the cluster that objects are looked up
in, the order in which Go ranges over a map, and the requests that fail. -/
structure Answers where
  cluster : Cluster := .unreachable
  order : List ContainerProfile → List ContainerProfile := id
  getFails : Bool := false
  createFails : Bool := false
  patchFails : Bool := false

/-- The next request of a handler, with its local variables. -/
inductive HandlerState
  | idle
  | getPod (event : ProfileEvent)
  | getReplicaSet (event : ProfileEvent)
  | getWorkload (event : ProfileEvent) (pod : Pod) (kind : WorkloadKind) (owner : String)
  | listPods (event : ProfileEvent) (pod : Pod) (kind : WorkloadKind) (workload : Workload)
  | getPodProfiles (event : ProfileEvent) (pod : Pod) (kind : WorkloadKind) (name : String)
      (pods : List Pod) (containersMap : List ContainerProfile)
  | get (plan : Plan)
  | create (plan : Plan)
  | patch (plan : Plan)

/-- A partial profile is not propagated. -/
def handleApplicationProfile (event : ProfileEvent) : HandlerState :=
  if event.profile.labels.get partialLabel = "true" then .idle else .getPod event

/-- One request of a handler; `none` if it is idle. Ranging over the map of containers
is a step of its own, and its order must be one of the map's. -/
def handlerStep (storeNamespace : String) (answers : Answers) (profiles : ProfileStore) :
    HandlerState → Option (HandlerState × ProfileStore)
  | .idle => none
  | .getPod event =>
      let object := objectOf storeNamespace event
      match answers.cluster.pods object.1 object.2 with
      | none => some (.getReplicaSet event, profiles)
      | some pod =>
          match pod.ownerReferences.head? with
          | none => some (.idle, profiles)
          | some owner =>
              match WorkloadKind.ofOwner owner.kind with
              | none => some (.idle, profiles)
              | some kind => some (.getWorkload event pod kind owner.name, profiles)
  | .getReplicaSet event =>
      let object := objectOf storeNamespace event
      match answers.cluster.replicaSets object.1 object.2 with
      | none => some (.idle, profiles)
      | some replicaSet =>
          match replicaSet.ownerReferences.head? with
          | none => some (.idle, profiles)
          | some owner =>
              -- The pod of this branch is empty, so the handler returns after its write.
              if owner.kind = "Deployment" then
                some (.get {
                  kind := .deployment
                  name := owner.name
                  nameSpace := replicaSet.nameSpace
                  labels := event.profile.labels
                  containers := event.profile.spec.containers }, profiles)
              else some (.idle, profiles)
  | .getWorkload event pod kind owner =>
      match getWorkload answers.cluster pod.nameSpace owner kind with
      | none => some (.idle, profiles)
      | some workload => some (.listPods event pod kind workload, profiles)
  | .listPods event pod kind workload =>
      match answers.cluster.listPods pod.nameSpace workload.selector with
      | none => some (.idle, profiles)
      | some pods => some (.getPodProfiles event pod kind workload.name pods [], profiles)
  | .getPodProfiles event pod kind name (item :: pods) containersMap =>
      let key := profileKey storeNamespace "pod" item.name item.nameSpace
      match request answers.getFails (profiles.get key) with
      | none => some (.idle, profiles)
      | some typedObj =>
          some (.getPodProfiles event pod kind name pods (addPod containersMap typedObj.value),
            profiles)
  | .getPodProfiles event pod kind name [] containersMap =>
      if (answers.order containersMap).Perm containersMap then
        some (.get {
          kind := kind
          name := name
          nameSpace := pod.nameSpace
          labels := event.profile.labels
          containers := answers.order containersMap }, profiles)
      else none
  | .get plan =>
      match request answers.getFails (profiles.get (plan.key storeNamespace)) with
      | none => some (.create plan, profiles)
      | some existing =>
          if existing.value.isFinal then some (.idle, profiles) else some (.patch plan, profiles)
  | .create plan =>
      match request answers.createFails (profiles.create (plan.key storeNamespace)
          (plan.newProfile storeNamespace)) with
      | none => some (.idle, profiles)
      | some next => some (.idle, next)
  | .patch plan =>
      match request answers.patchFails (profiles.patch (plan.key storeNamespace)
          plan.mergePatch) with
      | none => some (.idle, profiles)
      | some next => some (.idle, next)

end Kapprofiler.Controller
