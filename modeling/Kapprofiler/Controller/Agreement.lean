import Kapprofiler.Collector.Manager
import Kapprofiler.Controller.Handling
import Kapprofiler.Controller.ProfileNames

/-! # The profile of a pod's workload

The collector looks for the profile of a pod's workload by climbing the controllers of
the pod, and the controller stores it by the first owner of each object. Where the first
owner of an object is its controller, and one that is handled, the two meet.
-/

namespace Kapprofiler.Controller

open Collector Foundation

/-- Whatever is stored, the collector's check of the pod asks for this profile. -/
def LooksUp (config : CollectorManagerConfig) (cluster : Cluster) (pod : Pod)
    (key : String × String) : Prop :=
  ∀ getProfile : String × String → Option ApplicationProfile,
    doesApplicationProfileExists config cluster getProfile pod.nameSpace pod.name true true =
      (getProfile key).map fun existing => decide existing.isFinal

/-- Undisturbed, the handler of the event stores under this key what it has computed. -/
def StoresUnder (storeNamespace : String) (cluster : Cluster) (event : ProfileEvent)
    (profiles : ProfileStore) (key : String × String) (after : ProfileStore) : Prop :=
  ∃ plan object count, plan.key storeNamespace = key ∧
    (handlingMachine storeNamespace cluster event).run
      ⟨handleApplicationProfile event, profiles⟩ (List.replicate count (.request {})) =
        some ⟨.get plan, profiles⟩ ∧
    (handlingMachine storeNamespace cluster event).run ⟨.get plan, profiles⟩
      (List.replicate 2 (.request {})) = some ⟨.idle, after⟩ ∧
    after.get key = some object ∧ object.value.spec.containers = plan.containers

/-- The event of a stored profile, which is called as it is stored. -/
def eventOf (key : String × String) (profile : ApplicationProfile) : ProfileEvent where
  nameSpace := key.1
  profile := { profile with name := key.2 }

/-- The handler stores the workload's profile under the key: on the event of the pod's
profile, or on the event of the profile that it stores then. -/
def StoresWorkload (storeNamespace : String) (cluster : Cluster) (event : ProfileEvent)
    (profiles : ProfileStore) (key : String × String) : Prop :=
  ∃ first, StoresUnder storeNamespace cluster event profiles key first ∨
    ∃ between object last, StoresUnder storeNamespace cluster event profiles between first ∧
      first.get between = some object ∧
      StoresUnder storeNamespace cluster (eventOf between object.value) first key last

/-- With a final profile under the key, the pod's containers are not recorded. -/
def NotRecordedAgain (config : CollectorManagerConfig) (cluster : Cluster) (pod : Pod)
    (key : String × String) : Prop :=
  ∀ (id : ContainerId) (attach : Bool) (answers : Collector.Answers) (world : World) object,
    id.nameSpace = pod.nameSpace → id.podName = pod.name → answers.cluster = cluster →
    answers.getFails = false → config.recordStrategy = .onlyIfNotExists →
    world.profiles.get key = some object → object.value.isFinal →
    startStep config id attach answers world .checkProfile = some (.returned, world)

/-- The collector looks the workload's profile up where the controller stores it. -/
def Agreed (config : CollectorManagerConfig) (cluster : Cluster) (pod : Pod)
    (event : ProfileEvent) (profiles : ProfileStore) : Prop :=
  ∃ key, LooksUp config cluster pod key ∧
    StoresWorkload config.storeNamespace cluster event profiles key ∧
    NotRecordedAgain config cluster pod key

/-- The reference to the managing controller. -/
def controllerOf (ownerReferences : List OwnerReference) : Option OwnerReference :=
  ownerReferences.find? fun owner => owner.controller = some true

/-- The pod of the event is controlled by its first owner, and a replica set by its first
owner if by any, which then is a deployment. -/
structure FirstOwners (found : PodWorkload) : Prop where
  pod : controllerOf found.pod.ownerReferences = some found.owner
  replicaSet : found.kind = .replicaSet → ∀ owner,
    controllerOf found.workload.ownerReferences = some owner →
      found.workload.ownerReferences.head? = some owner ∧ owner.kind = "Deployment"

variable {config : CollectorManagerConfig} {storeNamespace : String} {cluster : Cluster}
  {event : ProfileEvent} {profiles : ProfileStore}

/-! ## What is looked up -/

theorem LooksUp.notRecordedAgain {pod : Pod} {key : String × String}
    (hlooksUp : LooksUp config cluster pod key) : NotRecordedAgain config cluster pod key := by
  intro id attach answers world object hnameSpace hpodName hcluster hgetFails hstrategy hobject
    hfinal
  have hexists := hlooksUp fun key =>
    (request answers.getFails (world.profiles.get key)).map (·.value)
  simp only [startStep, hcluster, hnameSpace, hpodName, hexists]
  apply if_pos
  simp [hgetFails, request, hobject, hfinal, hstrategy]

theorem toLower_of_ofOwner {owner : String} {kind : WorkloadKind}
    (hkind : WorkloadKind.ofOwner owner = some kind) : toLower owner = kind.name := by
  unfold WorkloadKind.ofOwner at hkind
  split at hkind <;> first | cases hkind; decide | cases hkind

/-- What the collector climbs to. -/
def climbed (found : PodWorkload) : OwnerReference :=
  if found.owner.kind = "ReplicaSet" then
    (controllerOf found.workload.ownerReferences).getD found.owner
  else found.owner

theorem climbed_cases {found : PodWorkload}
    (hkind : WorkloadKind.ofOwner found.owner.kind = some found.kind) :
    climbed found = found.owner ∨
      found.kind = .replicaSet ∧
        controllerOf found.workload.ownerReferences = some (climbed found) := by
  unfold climbed
  split
  next hreplicaSet =>
    cases hclimbed : controllerOf found.workload.ownerReferences with
    | none => exact Or.inl rfl
    | some owner =>
        rw [hreplicaSet] at hkind
        exact Or.inr ⟨(Option.some.inj hkind).symm, rfl⟩
  next => exact Or.inl rfl

theorem bind_isFinal (answer : Option ApplicationProfile) :
    (answer.bind fun existing => if existing.isFinal then some true else some false) =
      answer.map fun existing => decide existing.isFinal := by
  cases answer with
  | none => rfl
  | some existing => by_cases hfinal : existing.isFinal <;> simp [hfinal]

theorem looksUp_climbed {found : PodWorkload}
    (hpod : cluster.pods found.pod.nameSpace found.pod.name = some found.pod)
    (hkind : WorkloadKind.ofOwner found.owner.kind = some found.kind)
    (hworkload : getWorkload cluster found.pod.nameSpace found.owner.name found.kind =
      some found.workload)
    (howner : controllerOf found.pod.ownerReferences = some found.owner) :
    LooksUp config cluster found.pod (config.profileNamespace found.pod.nameSpace,
      config.getApplicationProfileName found.pod.nameSpace (climbed found).kind
        (climbed found).name) := by
  intro getProfile
  have hcontroller := howner
  unfold controllerOf at hcontroller
  rw [← bind_isFinal]
  by_cases hreplicaSet : found.owner.kind = "ReplicaSet"
  · have hget : cluster.replicaSets found.pod.nameSpace found.owner.name =
        some found.workload := by
      rw [hreplicaSet] at hkind
      obtain heq : WorkloadKind.replicaSet = found.kind := Option.some.inj hkind
      rwa [← heq] at hworkload
    cases hclimbed : found.workload.ownerReferences.find? fun owner =>
        owner.controller = some true with
    | none =>
        simp [doesApplicationProfileExists, hpod, hcontroller, hreplicaSet, hget, hclimbed,
          climbed, controllerOf]
    | some owner =>
        simp [doesApplicationProfileExists, hpod, hcontroller, hreplicaSet, hget, hclimbed,
          climbed, controllerOf]
  · simp [doesApplicationProfileExists, hpod, hcontroller, hreplicaSet, climbed]

/-! ## What is stored -/

/-- The labels of the profile stored under the key, if there is one. -/
def storedLabels (profiles : ProfileStore) (key : String × String) : Labels :=
  ((profiles.get key).map fun object => object.value.labels).getD ∅

/-- The profile is neither final nor partial. -/
structure Open (profiles : ProfileStore) (key : String × String) : Prop where
  final : (storedLabels profiles key).get finalLabel ≠ "true"
  whole : (storedLabels profiles key).get partialLabel ≠ "true"

/-- Two more requests store a plan, over the labels that are there, and touch nothing
else. -/
theorem exists_storesUnder {plan : Plan} {count : Nat}
    (hrun : (handlingMachine storeNamespace cluster event).run
      ⟨handleApplicationProfile event, profiles⟩ (List.replicate count (.request {})) =
        some ⟨.get plan, profiles⟩)
    (hfinal : (storedLabels profiles (plan.key storeNamespace)).get finalLabel ≠ "true") :
    ∃ after object,
      StoresUnder storeNamespace cluster event profiles (plan.key storeNamespace) after ∧
      after.get (plan.key storeNamespace) = some object ∧
      object.value.labels = plan.labels ∪ storedLabels profiles (plan.key storeNamespace) ∧
      ∀ other, other ≠ plan.key storeNamespace → after.get other = profiles.get other := by
  cases hexisting : profiles.get (plan.key storeNamespace) with
  | none =>
      have hcreate :=
        VersionedStore.create_of_absent (plan.newProfile storeNamespace) hexisting
      have hget := profiles.put_get (plan.key storeNamespace) (plan.newProfile storeNamespace)
      refine ⟨_, _, ⟨plan, _, count, rfl, hrun, ?_, hget, rfl⟩, hget, ?_, ?_⟩
      · simp [Machine.run, handlingMachine, handlingStep, handlerStep, hexisting, request,
          hcreate, List.replicate_succ]
      · simp [storedLabels, hexisting, Plan.newProfile]
      · intro other hother
        exact profiles.put_get_of_ne _ hother
  | some existing =>
      have hopen : ¬ existing.value.isFinal := by
        simpa [storedLabels, hexisting, ApplicationProfile.isFinal] using hfinal
      have hpatch := VersionedStore.patch_of_get plan.mergePatch hexisting
      obtain ⟨version, hget⟩ :=
        profiles.write_get (plan.mergePatch existing.value) hexisting
      refine ⟨_, _, ⟨plan, _, count, rfl, hrun, ?_, hget, rfl⟩, hget, ?_, ?_⟩
      · simp [Machine.run, handlingMachine, handlingStep, handlerStep, hexisting, request,
          hopen, hpatch, List.replicate_succ]
      · simp [storedLabels, hexisting, Plan.mergePatch]
      · intro other hother
        exact profiles.write_get_of_ne existing _ hother

/-! ## Both sides -/

/-- The event of a pod's profile whose handling succeeds: the objects are what they were
looked up for, their names are lower-case, all listed pods have profiles, and the profiles
to be written are neither final nor partial. -/
structure Setting (config : CollectorManagerConfig) (cluster : Cluster) (event : ProfileEvent)
    (profiles : ProfileStore) (found : PodWorkload) (stored : List ApplicationProfile) :
    Prop where
  lookups : found.Found config.storeNamespace cluster event
  object : objectOf config.storeNamespace event = (found.pod.nameSpace, found.pod.name)
  nameSpace : found.pod.nameSpace ≠ ""
  workloadName : found.workload.name = found.owner.name
  workloadNameSpace : found.workload.nameSpace = found.pod.nameSpace
  ownerName : toLower found.owner.name = found.owner.name
  whole : event.profile.labels.get partialLabel ≠ "true"
  podProfiles : List.Forall₂ (StoredFor config.storeNamespace profiles) found.pods stored
  target : Open profiles ((found.plan event []).key config.storeNamespace)
  deployment : found.kind = .replicaSet → ∀ owner,
    controllerOf found.workload.ownerReferences = some owner →
      toLower owner.name = owner.name ∧
      Open profiles (profileKey config.storeNamespace "deployment" owner.name
        found.pod.nameSpace) ∧
      cluster.pods found.pod.nameSpace found.workload.name = none

section Setting

variable {found : PodWorkload} {stored : List ApplicationProfile}
  (hsetting : Setting config cluster event profiles found stored)

include hsetting

/-- The event names the pod's namespace where names have to carry it. -/
theorem Setting.get_namespaceLabel (hstore : config.storeNamespace ≠ "") :
    event.profile.labels.get namespaceLabel = found.pod.nameSpace := by
  have hobject := congrArg Prod.fst hsetting.object
  unfold objectOf at hobject
  simpa [hstore] using hobject

theorem Setting.looksUp_climbed (hfirst : FirstOwners found) {kind : String}
    (hkind : toLower (climbed found).kind = kind)
    (hname : toLower (climbed found).name = (climbed found).name) :
    LooksUp config cluster found.pod
      (profileKey config.storeNamespace kind (climbed found).name found.pod.nameSpace) := by
  have hpod := hsetting.lookups.pod
  rw [hsetting.object] at hpod
  rw [← collectorKey_eq hkind hname]
  exact Controller.looksUp_climbed hpod hsetting.lookups.kind hsetting.lookups.workload
    hfirst.pod

/-- The profile that is stored for a replica set is an event of that replica set again,
which its deployment's handling begins with. -/
theorem Setting.found_deployment (hfirst : FirstOwners found)
    (hreplicaSet : found.kind = .replicaSet) {owner : OwnerReference}
    (howner : controllerOf found.workload.ownerReferences = some owner)
    {profile : ApplicationProfile}
    (hlabels : profile.labels = event.profile.labels ∪
      storedLabels profiles ((found.plan event []).key config.storeNamespace)) :
    OwnedReplicaSet.Found config.storeNamespace cluster
        (eventOf ((found.plan event []).key config.storeNamespace) profile)
        ⟨found.workload, owner⟩ ∧
      profile.labels.get partialLabel ≠ "true" := by
  obtain ⟨hhead, hkind⟩ := hfirst.replicaSet hreplicaSet owner howner
  obtain ⟨_, _, hnoPod⟩ := hsetting.deployment hreplicaSet owner howner
  -- The name of the profile leads back to the replica set.
  have hobject : objectOf config.storeNamespace
      (eventOf ((found.plan event []).key config.storeNamespace) profile) =
        (found.pod.nameSpace, found.workload.name) := by
    apply objectOf_of_profileKey found.kind.hyphen_notMem rfl
    · intro hstore
      unfold eventOf Plan.key profileKey
      rw [if_neg (not_not_intro hstore)]
      rfl
    · intro hstore
      have hlabel := hsetting.get_namespaceLabel hstore
      have hmem : namespaceLabel ∈ event.profile.labels := by
        by_contra hnone
        unfold Labels.get at hlabel
        rw [Finmap.lookup_eq_none.mpr hnone] at hlabel
        exact hsetting.nameSpace hlabel.symm
      change profile.labels.get namespaceLabel = found.pod.nameSpace
      rw [hlabels, Labels.get_union, if_pos hmem, hlabel]
  constructor
  · refine ⟨?_, ?_, hhead, hkind⟩
    · rw [hobject]
      exact hnoPod
    · rw [hobject]
      have hworkload := hsetting.lookups.workload
      rw [hreplicaSet, ← hsetting.workloadName] at hworkload
      exact hworkload
  · rw [hlabels, Labels.get_union]
    split
    · exact hsetting.whole
    · exact hsetting.target.whole

end Setting

/-- Where pods and replica sets are controlled by their first owners, the collector finds
the profile of a pod's workload where the controller has stored it. -/
theorem workload_profile_agreed {found : PodWorkload} {stored : List ApplicationProfile}
    (hsetting : Setting config cluster event profiles found stored)
    (hfirst : FirstOwners found) : Agreed config cluster found.pod event profiles := by
  have hrun := run_workload hsetting.lookups hsetting.whole hsetting.podProfiles
  obtain ⟨first, object, hstores, hobject, hlabels, hothers⟩ :=
    exists_storesUnder hrun hsetting.target.final
  rcases climbed_cases hsetting.lookups.kind with hclimbed | ⟨hreplicaSet, hclimbed⟩
  · -- The controller of the pod is the workload.
    have hlooksUp := hsetting.looksUp_climbed hfirst
      (hclimbed ▸ toLower_of_ofOwner hsetting.lookups.kind) (hclimbed ▸ hsetting.ownerName)
    rw [hclimbed, ← hsetting.workloadName] at hlooksUp
    exact ⟨_, hlooksUp, ⟨first, Or.inl hstores⟩, hlooksUp.notRecordedAgain⟩
  · -- The workload is the deployment that controls the pod's replica set.
    obtain ⟨_, hkind⟩ := hfirst.replicaSet hreplicaSet _ hclimbed
    obtain ⟨hname, htarget, _⟩ := hsetting.deployment hreplicaSet _ hclimbed
    have hlower : toLower (climbed found).kind = "deployment" := by
      rw [hkind]
      decide
    have hlooksUp := hsetting.looksUp_climbed hfirst hlower hname
    obtain ⟨hfound, hwhole⟩ := hsetting.found_deployment hfirst hreplicaSet hclimbed hlabels
    have hother : profileKey config.storeNamespace "deployment" (climbed found).name
        found.pod.nameSpace ≠ (found.plan event []).key config.storeNamespace := by
      intro heq
      have hkind := kind_eq_of_profileKey_eq (by decide) found.kind.hyphen_notMem heq
      rw [hreplicaSet] at hkind
      exact absurd hkind (by decide)
    have hdeployment := run_deployment first hfound hwhole
    have hkey : (OwnedReplicaSet.plan (eventOf ((found.plan event []).key config.storeNamespace)
        object.value) ⟨found.workload, climbed found⟩).key config.storeNamespace =
          profileKey config.storeNamespace "deployment" (climbed found).name
            found.pod.nameSpace := by
      rw [← hsetting.workloadNameSpace]
      rfl
    -- The first handling has not touched the profile of the deployment.
    have hfinal : (storedLabels first (profileKey config.storeNamespace "deployment"
        (climbed found).name found.pod.nameSpace)).get finalLabel ≠ "true" := by
      unfold storedLabels
      rw [hothers _ hother]
      exact htarget.final
    obtain ⟨last, _, hstores', _⟩ := exists_storesUnder hdeployment (hkey ▸ hfinal)
    rw [hkey] at hstores'
    exact ⟨_, hlooksUp, ⟨first, Or.inr ⟨_, object, last, hstores, hobject, hstores'⟩⟩,
      hlooksUp.notRecordedAgain⟩

/-! ## A pod of a replica set -/

/-- What is stored for an event has been planned for it. -/
theorem StoresUnder.planned {key : String × String} {after : ProfileStore}
    (hstores : StoresUnder storeNamespace cluster event profiles key after) :
    ∃ plan read, plan.key storeNamespace = key ∧
      Planned storeNamespace cluster event read plan := by
  obtain ⟨plan, _, count, hkey, hrun, _⟩ := hstores
  exact ⟨plan, _, hkey, justified_of_run rfl hrun⟩

/-- The check asks for one profile only. -/
theorem LooksUp.unique {pod : Pod} {first second : String × String}
    (hfirst : LooksUp config cluster pod first) (hsecond : LooksUp config cluster pod second) :
    first = second := by
  let profile : ApplicationProfile := { name := "", labels := ∅, spec := ⟨[]⟩ }
  have heq := (hfirst fun key => if key = first then some profile else none).symm.trans
    (hsecond fun key => if key = first then some profile else none)
  by_contra hne
  simp [Ne.symm hne] at heq

def shopPod (ownerReferences : List OwnerReference) : Pod where
  name := "shop-1-x"
  nameSpace := "default"
  ownerReferences := ownerReferences

def shopReplicaSet (ownerKind : String) : Workload where
  name := "shop-1"
  nameSpace := "default"
  ownerReferences := [⟨ownerKind, "shop", some true⟩]

/-- The pod, and the replica set `shop-1` that belongs to an object of that kind. -/
def shopCluster (ownerReferences : List OwnerReference) (ownerKind : String) : Cluster :=
  { Cluster.unreachable with
    pods := fun nameSpace name =>
      if nameSpace = "default" ∧ name = "shop-1-x" then some (shopPod ownerReferences) else none
    listPods := fun _ _ => some [shopPod ownerReferences]
    replicaSets := fun nameSpace name =>
      if nameSpace = "default" ∧ name = "shop-1" then some (shopReplicaSet ownerKind) else none }

def shopOwner : OwnerReference := ⟨"ReplicaSet", "shop-1", some true⟩

def shopKey : String × String := ("kapprofiler", "pod-shop-1-x-default")

def shopProfile : ApplicationProfile where
  name := "pod-shop-1-x-default"
  labels := (∅ : Labels).insert namespaceLabel "default"
  spec := ⟨[{ name := "app", sysCalls := ["read"] }]⟩

def shopEvent : ProfileEvent := eventOf shopKey shopProfile

def shopStore : ProfileStore := VersionedStore.empty.put shopKey shopProfile

/-- The pod, found with its replica set. -/
def shopFound (ownerKind : String) : PodWorkload where
  pod := shopPod [shopOwner]
  owner := shopOwner
  kind := .replicaSet
  workload := shopReplicaSet ownerKind
  pods := [shopPod [shopOwner]]

theorem found_shop (ownerKind : String) :
    (shopFound ownerKind).Found "kapprofiler" (shopCluster [shopOwner] ownerKind) shopEvent :=
  ⟨rfl, rfl, rfl, rfl, rfl⟩

/-- The profile of the deployment `shop` is found. -/
theorem shop_profile_agreed :
    Agreed storingConfig (shopCluster [shopOwner] "Deployment") (shopPod [shopOwner]) shopEvent
      shopStore := by
  have hsetting : Setting storingConfig (shopCluster [shopOwner] "Deployment") shopEvent
      shopStore (shopFound "Deployment") [shopProfile] :=
    { lookups := found_shop "Deployment"
      object := by decide
      nameSpace := by decide
      workloadName := rfl
      workloadNameSpace := rfl
      ownerName := by decide
      whole := by decide
      podProfiles := .cons ⟨1, rfl⟩ .nil
      target := ⟨by decide, by decide⟩
      deployment := by
        intro _ owner howner
        obtain rfl : _ = owner := Option.some.inj howner
        exact ⟨by decide, ⟨by decide, by decide⟩, rfl⟩ }
  refine workload_profile_agreed hsetting ⟨rfl, ?_⟩
  intro _ owner howner
  obtain rfl : _ = owner := Option.some.inj howner
  exact ⟨rfl, rfl⟩

/-- Whatever the event, only the replica set's profile is written. -/
theorem Planned.key_of_rollout {read : Pod → ApplicationProfile → Prop} {plan : Plan}
    (hplanned : Planned "kapprofiler" (shopCluster [shopOwner] "Rollout") event read plan) :
    plan.key "kapprofiler" = ("kapprofiler", "replicaset-shop-1-default") := by
  cases hplanned with
  | workload found _ containers hfound =>
      have hpod : found.pod = shopPod [shopOwner] := by
        have hpod := hfound.pod
        simp only [shopCluster] at hpod
        split at hpod
        · exact (Option.some.inj hpod).symm
        · cases hpod
      have howner : shopOwner = found.owner := by
        have howner := hfound.owner
        rw [hpod] at howner
        exact Option.some.inj howner
      have hkind := hfound.kind
      rw [← howner] at hkind
      have hworkload := hfound.workload
      rw [hpod, ← howner, ← Option.some.inj hkind] at hworkload
      unfold PodWorkload.plan
      rw [← Option.some.inj hkind, ← Option.some.inj hworkload, hpod]
      rfl
  | deployment found hfound =>
      have hreplicaSet := hfound.replicaSet
      simp only [shopCluster] at hreplicaSet
      split at hreplicaSet
      · have howner := hfound.owner
        rw [← Option.some.inj hreplicaSet] at howner
        have hdeployment := hfound.deployment
        rw [← Option.some.inj howner] at hdeployment
        exact absurd hdeployment (by decide)
      · cases hreplicaSet

/-- A pod without owners has no workload whose profile is stored, and the profile of a
rollout that owns the pod's replica set is not stored either. -/
theorem shop_profile_not_agreed :
    ¬ Agreed storingConfig (shopCluster [] "Deployment") (shopPod []) shopEvent shopStore ∧
    ¬ Agreed storingConfig (shopCluster [shopOwner] "Rollout") (shopPod [shopOwner]) shopEvent
      shopStore := by
  constructor
  · intro hagreed
    obtain ⟨key, _, ⟨first, hstores⟩, _⟩ := hagreed
    have hplanned : ∃ plan read, Planned "kapprofiler" (shopCluster [] "Deployment") shopEvent
        read plan := by
      rcases hstores with hstores | ⟨_, _, _, hstores, _⟩
      · obtain ⟨plan, read, _, hplanned⟩ := hstores.planned
        exact ⟨plan, read, hplanned⟩
      · obtain ⟨plan, read, _, hplanned⟩ := hstores.planned
        exact ⟨plan, read, hplanned⟩
    obtain ⟨plan, read, hplanned⟩ := hplanned
    cases hplanned with
    | workload found _ _ hfound =>
        -- A pod without owners has no workload, so the handler stops.
        obtain heq : shopPod [] = found.pod := Option.some.inj hfound.pod
        have howner := hfound.owner
        rw [← heq] at howner
        cases howner
    | deployment found hfound => cases hfound.pod
  · intro hagreed
    obtain ⟨key, hlooksUp, ⟨first, hstores⟩, _⟩ := hagreed
    have hclimbed : LooksUp storingConfig (shopCluster [shopOwner] "Rollout")
        (shopPod [shopOwner]) ("kapprofiler", "rollout-shop-default") :=
      @looksUp_climbed storingConfig (shopCluster [shopOwner] "Rollout") (shopFound "Rollout")
        rfl rfl rfl rfl
    obtain rfl := hlooksUp.unique hclimbed
    rcases hstores with hstores | ⟨_, _, _, _, _, hstores⟩
    · obtain ⟨plan, read, hkey, hplanned⟩ := hstores.planned
      exact absurd (hplanned.key_of_rollout.symm.trans hkey) (by decide)
    · obtain ⟨plan, read, hkey, hplanned⟩ := hstores.planned
      exact absurd (hplanned.key_of_rollout.symm.trans hkey) (by decide)

end Kapprofiler.Controller
