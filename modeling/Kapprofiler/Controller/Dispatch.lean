import Kapprofiler.Controller.Handling
import Kapprofiler.Controller.ProfileNames

/-! # Dispatching an event

The handler drops the kind from the name of an event's profile, and looks for a pod and
then for a replica set of the name that is left. So it takes the profile of a workload
for that of a pod, or of a replica set, that happens to be called like it.
-/

namespace Kapprofiler.Controller

open Collector Foundation

/-- The kind of the object that the profile belongs to: what stands before the first
hyphen of its name. -/
def ProfileEvent.kind (event : ProfileEvent) : String :=
  String.ofList ((segments '-' event.profile.name).headD [])

/-- The profile of a pod may be written for any workload, that of a replica set only for
the deployment owning it, and no other is written for another. -/
def DispatchedByKind (storeNamespace : String) (cluster : Cluster) (event : ProfileEvent) :
    Prop :=
  ∀ handling plan, (handlingMachine storeNamespace cluster event).Reachable handling →
    handling.state = .create plan ∨ handling.state = .patch plan →
    event.kind = "pod" ∨
      event.kind = "replicaset" ∧ ∃ replicaSet owner,
        cluster.replicaSets (objectOf storeNamespace event).1 (objectOf storeNamespace event).2 =
          some replicaSet ∧
        owner ∈ replicaSet.ownerReferences ∧ owner.kind = "Deployment" ∧
        plan.key storeNamespace =
          profileKey storeNamespace "deployment" owner.name replicaSet.nameSpace

variable {storeNamespace : String} {cluster : Cluster} {event : ProfileEvent}

/-- Some profile is stored under every name. -/
def fullStore : ProfileStore where
  objects _ := some ⟨{ name := "", labels := ∅, spec := ⟨[]⟩ }, 0⟩
  revision := 0
  version_le _ _ h := by
    rw [← Option.some.inj h]

/-- The lookup of the workload's profile may fail, and then it is created. -/
theorem reachable_create {profiles : ProfileStore} {plan : Plan}
    {labels : List HandlingLabel}
    (hrun : (handlingMachine storeNamespace cluster event).run
      ⟨handleApplicationProfile event, profiles⟩ labels = some ⟨.get plan, profiles⟩) :
    (handlingMachine storeNamespace cluster event).Reachable ⟨.create plan, profiles⟩ := by
  refine ⟨⟨handleApplicationProfile event, profiles⟩,
    labels ++ [.request { getFails := true }], rfl, ?_⟩
  exact (Machine.run_append _).mpr ⟨_, hrun, rfl⟩

theorem ofOwner_ne_deployment (kind : String) : WorkloadKind.ofOwner kind ≠ some .deployment := by
  unfold WorkloadKind.ofOwner
  split <;> simp

/-- What is written for the workload of a pod is no deployment's profile. -/
theorem PodWorkload.Found.key_ne_deployment {found : PodWorkload}
    (hfound : found.Found storeNamespace cluster event) (containers : List ContainerProfile)
    (name nameSpace : String) :
    (found.plan event containers).key storeNamespace ≠
      profileKey storeNamespace "deployment" name nameSpace := by
  intro heq
  have hname : found.kind.name = "deployment" :=
    kind_eq_of_profileKey_eq found.kind.hyphen_notMem (by decide) heq
  have hkind := hfound.kind
  cases hcase : found.kind with
  | deployment => exact ofOwner_ne_deployment _ (hcase ▸ hkind)
  | replicaSet | daemonSet | statefulSet | cronJob | job =>
      rw [hcase] at hname
      exact absurd hname (by decide)

/-- An event is dispatched by its kind exactly if its profile is partial or a pod's, or no
pod with a workload is called like its object, nor a deployment's replica set unless the
event is a replica set's. -/
theorem dispatchedByKind_iff (storeNamespace : String) (cluster : Cluster)
    (event : ProfileEvent) :
    DispatchedByKind storeNamespace cluster event ↔
      event.profile.labels.get partialLabel = "true" ∨ event.kind = "pod" ∨
        (∀ found : PodWorkload, ¬ found.Found storeNamespace cluster event) ∧
          (event.kind = "replicaset" ∨
            ∀ found : OwnedReplicaSet, ¬ found.Found storeNamespace cluster event) := by
  constructor
  · intro hdispatched
    by_contra hcondition
    rw [not_or, not_or] at hcondition
    obtain ⟨hwhole, hpod, hnames⟩ := hcondition
    apply hnames
    constructor
    · intro found hfound
      -- Where every profile exists, the handler of a pod reaches its create.
      obtain ⟨stored, hstored⟩ : ∃ stored,
          List.Forall₂ (StoredFor storeNamespace fullStore) found.pods stored :=
        exists_storedFor storeNamespace (fun _ => ⟨_, rfl⟩) found.pods
      rcases hdispatched _ _ (reachable_create (run_workload hfound hwhole hstored))
        (Or.inl rfl) with hkind | ⟨_, replicaSet, owner, _, _, _, hkey⟩
      · exact hpod hkind
      · exact hfound.key_ne_deployment _ _ _ hkey
    · refine or_iff_not_imp_left.mpr ?_
      intro hreplicaSet found hfound
      have hrun := run_deployment (@VersionedStore.empty _ _) hfound hwhole
      rcases hdispatched _ _ (reachable_create hrun) (Or.inl rfl) with hkind | ⟨hkind, _⟩
      · exact hpod hkind
      · exact hreplicaSet hkind
  · intro hcondition handling plan hreach hplan
    obtain ⟨hwhole, read, hplanned⟩ := planned_of_reachable hreach hplan
    rcases hcondition with h | hpod | ⟨hnoPod, hreplicaSet⟩
    · exact absurd h hwhole
    · exact Or.inl hpod
    · cases hplanned with
      | workload found _ _ hfound => exact absurd hfound (hnoPod found)
      | deployment found hfound =>
          have hkind := hreplicaSet.resolve_right fun hnone => hnone found hfound
          exact Or.inr ⟨hkind, found.replicaSet, found.owner, hfound.replicaSet,
            List.mem_of_mem_head? hfound.owner, hfound.deployment, rfl⟩

/-! ## A deployment that is called like a pod -/

/-- The first pod of the stateful set `db`. -/
def dbPod : Pod where
  name := "db-0"
  nameSpace := "default"
  ownerReferences := [⟨"StatefulSet", "db", some true⟩]

def dbCluster : Cluster :=
  { Cluster.unreachable with
    pods := fun nameSpace name =>
      if nameSpace = "default" ∧ name = "db-0" then some dbPod else none
    listPods := fun _ _ => some [dbPod]
    statefulSets := fun nameSpace name =>
      if name = "db" then some ⟨name, nameSpace, [], ∅⟩ else none }

/-- The profile of the deployment `db-0` has become final. -/
def dbEvent : ProfileEvent where
  nameSpace := "default"
  profile :=
    { name := "deployment-db-0"
      labels := (∅ : Labels).insert finalLabel "true"
      spec := ⟨[]⟩ }

def dbStore : ProfileStore :=
  VersionedStore.empty.put ("default", "pod-db-0")
    { name := "pod-db-0", labels := ∅, spec := ⟨[{ name := "db", sysCalls := ["read"] }]⟩ }

/-- The profile of the stateful set is created from its pod, and final like that of the
deployment. -/
theorem deployment_finalizes_stateful_set : ¬ DispatchedByKind "" dbCluster dbEvent ∧
    ∃ labels last object, (handlingMachine "" dbCluster dbEvent).run
        ⟨handleApplicationProfile dbEvent, dbStore⟩ labels = some last ∧
      last.profiles.get ("default", "statefulset-db") = some object ∧ object.value.isFinal := by
  constructor
  · intro hdispatched
    obtain ⟨plan, hrun⟩ : ∃ plan, (handlingMachine "" dbCluster dbEvent).run
        ⟨handleApplicationProfile dbEvent, dbStore⟩ (List.replicate 6 (.request {})) =
          some ⟨.create plan, dbStore⟩ := ⟨_, rfl⟩
    rcases hdispatched _ plan ⟨⟨handleApplicationProfile dbEvent, dbStore⟩, _, rfl, hrun⟩
      (Or.inl rfl) with hkind | ⟨hkind, _⟩
    · exact absurd hkind (by decide)
    · exact absurd hkind (by decide)
  · exact ⟨List.replicate 7 (.request {}), _, _, rfl, rfl, by decide⟩

end Kapprofiler.Controller
