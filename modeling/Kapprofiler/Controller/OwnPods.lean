import Kapprofiler.Controller.Handling

/-! # The pods whose profiles are merged

The handler lists the pods of a workload by its labels, and takes all that match for
the workload's own. A pod that only looks like them contributes to the profile as well.
-/

namespace Kapprofiler.Controller

open Collector Foundation

/-- The selector's labels have the same values among the pod's. -/
def Selects (selector labels : Labels) : Prop :=
  ∀ label ∈ selector.keys, labels.lookup label = selector.lookup label

instance (selector labels : Labels) : Decidable (Selects selector labels) :=
  inferInstanceAs (Decidable (∀ label ∈ selector.keys, _ = _))

/-- The API server finds pods of the population by their names, and lists those that a
selector selects. -/
structure Serves (population : Pod → Prop) (cluster : Cluster) : Prop where
  unique : ∀ first second, population first → population second →
    first.nameSpace = second.nameSpace → first.name = second.name → first = second
  pods : ∀ nameSpace name pod, cluster.pods nameSpace name = some pod →
    population pod ∧ pod.nameSpace = nameSpace ∧ pod.name = name
  listPods : ∀ nameSpace selector pods, cluster.listPods nameSpace selector = some pods →
    ∀ pod, pod ∈ pods ↔
      population pod ∧ pod.nameSpace = nameSpace ∧ Selects selector pod.labels

/-- The owner is among those of the pod. -/
def OwnedBy (owner : OwnerReference) (pod : Pod) : Prop :=
  ∃ reference ∈ pod.ownerReferences, reference.kind = owner.kind ∧ reference.name = owner.name

instance (owner : OwnerReference) : DecidablePred (OwnedBy owner) := fun _ =>
  inferInstanceAs (Decidable (∃ _ ∈ _, _ = _ ∧ _ = _))

/-- Whatever is written for the owner of the event's pod was read in the profile of a pod
that has this owner. -/
def OwnPodsOnly (storeNamespace : String) (population : Pod → Prop) (cluster : Cluster)
    (event : ProfileEvent) : Prop :=
  ∀ pod owner,
    cluster.pods (objectOf storeNamespace event).1 (objectOf storeNamespace event).2 = some pod →
    pod.ownerReferences.head? = some owner →
    ∀ start labels handling plan, start.state = handleApplicationProfile event →
      (handlingMachine storeNamespace cluster event).run start labels = some handling →
      handling.state = .create plan ∨ handling.state = .patch plan →
      ∀ name (category : Category) (entry : category.Entry),
        HasEntry plan.containers name category entry →
        ∃ item profile, population item ∧ item.nameSpace = pod.nameSpace ∧ OwnedBy owner item ∧
          Seen storeNamespace cluster event start labels item profile ∧
          HasEntry profile.spec.containers name category entry

variable {storeNamespace : String} {population : Pod → Prop} {cluster : Cluster}
  {event : ProfileEvent}

theorem exists_of_mem_left {First Second : Type} {related : First → Second → Prop}
    {firsts : List First} {seconds : List Second}
    (hrelated : List.Forall₂ related firsts seconds) {first : First} (hfirst : first ∈ firsts) :
    ∃ second ∈ seconds, related first second := by
  induction hrelated with
  | nil => cases hfirst
  | cons hhead _ ih =>
      rcases List.mem_cons.mp hfirst with rfl | hrest
      · exact ⟨_, List.mem_cons_self, hhead⟩
      · obtain ⟨second, hmem, hsecond⟩ := ih hrest
        exact ⟨second, List.mem_cons_of_mem _ hmem, hsecond⟩

/-- What is written was read in the profile of a listed pod. -/
theorem exists_seen_of_planned {start last : Handling} {labels : List HandlingLabel}
    {found : PodWorkload} {plan : Plan} (hfound : found.Found storeNamespace cluster event)
    (hstart : start.state = handleApplicationProfile event)
    (hrun : (handlingMachine storeNamespace cluster event).run start labels = some last)
    (hplan : last.state = .create plan ∨ last.state = .patch plan)
    {name : String} {category : Category} {entry : category.Entry}
    (hentry : HasEntry plan.containers name category entry) :
    ∃ item ∈ found.pods, ∃ profile,
      Seen storeNamespace cluster event start labels item profile ∧
      HasEntry profile.spec.containers name category entry := by
  have hplanned : Planned storeNamespace cluster event
      (Seen storeNamespace cluster event start labels) plan := by
    have hjustified := justified_of_run hstart hrun
    rcases hplan with h | h <;> rw [h] at hjustified <;> exact hjustified
  cases hplanned with
  | deployment other hother =>
      have hpod := hother.pod
      rw [hfound.pod] at hpod
      cases hpod
  | workload other profiles containers hother hread hmerged =>
      obtain ⟨profile, hprofile, hhas⟩ := mem_recorded.mp (hmerged.mem_recorded hentry)
      obtain ⟨item, hitem, hseen⟩ :=
        exists_of_mem_left (List.Forall₂.flip (R := flip _) hread) hprofile
      exact ⟨item, hother.eq hfound ▸ hitem, profile, hseen, hhas⟩

/-! ## A pod with a profile of its own -/

/-- In one namespace, pods of different names have different profiles. -/
theorem name_eq_of_profileKey_eq {kind name other nameSpace : String}
    (heq : profileKey storeNamespace kind name nameSpace =
      profileKey storeNamespace kind other nameSpace) : name = other := by
  unfold profileKey at heq
  split at heq
  · have hname := congrArg (fun key => key.2.toList) heq
    simpa [String.toList_append, String.toList_inj] using hname
  · have hname := congrArg (fun key => key.2.toList) heq
    simpa [String.toList_append, String.toList_inj] using hname

/-- Under every name an empty profile is stored, except for the pod, which made a system
call. -/
def markedStore (storeNamespace : String) (item : Pod) : ProfileStore where
  objects key :=
    if key = profileKey storeNamespace "pod" item.name item.nameSpace then
      some ⟨{ name := key.2, labels := ∅, spec := ⟨[{ name := "app", sysCalls := ["read"] }]⟩ }, 0⟩
    else some ⟨{ name := key.2, labels := ∅, spec := ⟨[]⟩ }, 0⟩
  revision := 0
  version_le key object hobject := by
    split at hobject <;> rw [← Option.some.inj hobject]

theorem markedStore_full (storeNamespace : String) (item : Pod) (key : String × String) :
    ∃ object, (markedStore storeNamespace item).get key = some object := by
  unfold VersionedStore.get markedStore
  dsimp only
  split
  · exact ⟨_, rfl⟩
  · exact ⟨_, rfl⟩

/-- The system call comes from the profile of that pod alone. -/
theorem storedFor_markedStore {item other : Pod} {profile : ApplicationProfile}
    (hstored : StoredFor storeNamespace (markedStore storeNamespace item) other profile) :
    HasEntry profile.spec.containers "app" .sysCalls "read" ↔
      profileKey storeNamespace "pod" other.name other.nameSpace =
        profileKey storeNamespace "pod" item.name item.nameSpace := by
  obtain ⟨version, hget⟩ := hstored
  unfold VersionedStore.get markedStore at hget
  dsimp only at hget
  split at hget
  next heq =>
    refine iff_of_true ?_ heq
    obtain ⟨rfl, rfl⟩ := Versioned.mk.inj (Option.some.inj hget)
    exact ⟨_, List.mem_cons_self, rfl, List.mem_cons_self⟩
  next hne =>
    refine iff_of_false ?_ hne
    obtain ⟨rfl, rfl⟩ := Versioned.mk.inj (Option.some.inj hget)
    intro hentry
    obtain ⟨_, hcontainer, _⟩ := hentry
    cases hcontainer

/-- A handler that only makes requests and does not get to its write sees what is stored at
its start. -/
theorem Seen.of_requests {start last : Handling} {requests : List Answers}
    (hrun : (handlingMachine storeNamespace cluster event).run start (requests.map .request) =
      some last) (hlast : last.state ≠ .idle) {item : Pod} {profile : ApplicationProfile}
    (hseen : Seen storeNamespace cluster event start (requests.map .request) item profile) :
    StoredFor storeNamespace start.profiles item profile := by
  obtain ⟨before, middle, ⟨after, hlabels⟩, hbefore, hstored⟩ := hseen
  obtain ⟨first, second, rfl, rfl, rfl⟩ := List.append_eq_map_iff.mp hlabels
  rw [List.map_append, Machine.run_append] at hrun
  obtain ⟨middle', hbefore', hafter⟩ := hrun
  obtain rfl := Option.some.inj (hbefore.symm.trans hbefore')
  have hmiddle : middle.state ≠ .idle := by
    intro hidle
    exact hlast (requests_of_idle hidle hafter ▸ hidle)
  rwa [← requests_keep hbefore hmiddle]

/-- A listed pod that does not have the owner contributes what only it has done. -/
theorem not_ownPodsOnly (hserves : Serves population cluster)
    (hwhole : event.profile.labels.get partialLabel ≠ "true") {found : PodWorkload}
    (hfound : found.Found storeNamespace cluster event) {item : Pod}
    (hitem : item ∈ found.pods) (howner : ¬ OwnedBy found.owner item) :
    ¬ OwnPodsOnly storeNamespace population cluster event := by
  intro hown
  obtain ⟨stored, hstored⟩ :=
    exists_storedFor storeNamespace (markedStore_full storeNamespace item) found.pods
  obtain ⟨requests, hrun⟩ : ∃ requests : List Answers,
      (handlingMachine storeNamespace cluster event).run
        ⟨handleApplicationProfile event, markedStore storeNamespace item⟩
        (requests.map .request) =
          some ⟨.create (found.plan event (stored.foldl addPod [])),
            markedStore storeNamespace item⟩ := by
    refine ⟨List.replicate (3 + (found.pods.length + 1)) ({} : Answers) ++
      [{ getFails := true }], ?_⟩
    rw [List.map_append, List.map_replicate, Machine.run_append]
    exact ⟨_, run_workload hfound hwhole hstored, rfl⟩
  have hentry : HasEntry (stored.foldl addPod []) "app" .sysCalls "read" := by
    have hmerged : Merged stored (stored.foldl addPod []) := List.Perm.refl _
    rw [hmerged.hasEntry_iff (by decide), mem_recorded]
    obtain ⟨profile, hprofile, hitemProfile⟩ := exists_of_mem_left hstored hitem
    exact ⟨profile, hprofile, (storedFor_markedStore hitemProfile).mpr rfl⟩
  obtain ⟨other, profile, hother, hnameSpace, hotherOwner, hseen, hhas⟩ :=
    hown found.pod found.owner hfound.pod hfound.owner _ _ _ _ rfl hrun (Or.inl rfl) "app"
      .sysCalls "read" hentry
  obtain ⟨hpopulation, hitemNameSpace, _⟩ :=
    (hserves.listPods _ _ _ hfound.pods item).mp hitem
  have hsame : other.nameSpace = item.nameSpace := hnameSpace.trans hitemNameSpace.symm
  have hkey := (storedFor_markedStore (hseen.of_requests hrun (by simp))).mp hhas
  rw [hsame] at hkey
  have heq := hserves.unique other item hother hpopulation hsame (name_eq_of_profileKey_eq hkey)
  exact howner (heq ▸ hotherOwner)

/-- The controller merges the profiles of the workload's own pods only exactly if all pods
of the namespace that are selected by its labels have it as an owner. -/
theorem ownPodsOnly_iff (hserves : Serves population cluster) :
    OwnPodsOnly storeNamespace population cluster event ↔
      event.profile.labels.get partialLabel = "true" ∨
        ∀ found : PodWorkload, found.Found storeNamespace cluster event →
          ∀ item, population item → item.nameSpace = found.pod.nameSpace →
            Selects found.workload.selector item.labels → OwnedBy found.owner item := by
  constructor
  · intro hown
    refine or_iff_not_imp_left.mpr ?_
    intro hwhole found hfound item hitem hnameSpace hselects
    by_contra howner
    have hlisted := (hserves.listPods _ _ _ hfound.pods item).mpr ⟨hitem, hnameSpace, hselects⟩
    exact not_ownPodsOnly hserves hwhole hfound hlisted howner hown
  · intro hcondition pod owner hpod howner start labels handling plan hstart hrun hplan name
      category entry hentry
    obtain ⟨hwhole, read, hplanned⟩ := planned_of_reachable ⟨start, labels, hstart, hrun⟩ hplan
    cases hplanned with
    | deployment other hother =>
        have hnone := hother.pod
        rw [hpod] at hnone
        cases hnone
    | workload found profiles containers hfound _ _ =>
        obtain ⟨item, hitem, profile, hseen, hhas⟩ :=
          exists_seen_of_planned hfound hstart hrun hplan hentry
        obtain ⟨hpopulation, hnameSpace, hselects⟩ :=
          (hserves.listPods _ _ _ hfound.pods item).mp hitem
        obtain rfl : found.pod = pod := Option.some.inj (hfound.pod.symm.trans hpod)
        obtain rfl : found.owner = owner := Option.some.inj (hfound.owner.symm.trans howner)
        exact ⟨item, profile, hpopulation, hnameSpace,
          hcondition.resolve_left hwhole found hfound item hpopulation hnameSpace hselects,
          hseen, hhas⟩

/-! ## A daemon set without match labels -/

/-- A cluster of these pods and one daemon set. -/
def daemonSetCluster (population : List Pod) (daemonSet : Workload) : Cluster :=
  { Cluster.unreachable with
    pods := fun nameSpace name =>
      population.find? fun pod => pod.nameSpace = nameSpace ∧ pod.name = name
    listPods := fun nameSpace selector =>
      some (population.filter fun pod => pod.nameSpace = nameSpace ∧ Selects selector pod.labels)
    daemonSets := fun nameSpace name =>
      if nameSpace = daemonSet.nameSpace ∧ name = daemonSet.name then some daemonSet else none }

theorem serves_daemonSetCluster {pods : List Pod} {daemonSet : Workload}
    (hunique : ∀ first ∈ pods, ∀ second ∈ pods, first.nameSpace = second.nameSpace →
      first.name = second.name → first = second) :
    Serves (· ∈ pods) (daemonSetCluster pods daemonSet) where
  unique first second hfirst hsecond := hunique first hfirst second hsecond
  pods nameSpace name pod hpod := by
    have hnames := List.find?_some hpod
    exact ⟨List.mem_of_find?_eq_some hpod, by simpa using hnames⟩
  listPods nameSpace selector listed hlisted pod := by
    obtain rfl := Option.some.inj hlisted
    rw [List.mem_filter, decide_eq_true_iff]

def agentPod : Pod where
  name := "agent-x1"
  nameSpace := "default"
  labels := (∅ : Labels).insert "app" "agent"
  ownerReferences := [⟨"DaemonSet", "agent", some true⟩]

def sitePod : Pod where
  name := "site-0"
  nameSpace := "default"
  labels := (∅ : Labels).insert "app" "site"
  ownerReferences := [⟨"StatefulSet", "site", some true⟩]

/-- The daemon set selects its pods by these labels, and perhaps by expressions. -/
def agentSet (selector : Labels) : Workload := ⟨"agent", "default", [], selector⟩

def agentCluster (selector : Labels) : Cluster :=
  daemonSetCluster [agentPod, sitePod] (agentSet selector)

def agentEvent : ProfileEvent where
  nameSpace := "default"
  profile := { name := "pod-agent-x1", labels := ∅, spec := ⟨[]⟩ }

def agentWorkload (selector : Labels) (pods : List Pod) : PodWorkload :=
  ⟨agentPod, ⟨"DaemonSet", "agent", some true⟩, .daemonSet, agentSet selector, pods⟩

theorem serves_agentCluster (selector : Labels) :
    Serves (· ∈ [agentPod, sitePod]) (agentCluster selector) :=
  serves_daemonSetCluster (by decide)

theorem agent_own_pods_only :
    OwnPodsOnly "" (· ∈ [agentPod, sitePod]) (agentCluster ((∅ : Labels).insert "app" "agent"))
      agentEvent := by
  refine (ownPodsOnly_iff (serves_agentCluster _)).mpr (Or.inr ?_)
  intro found hfound item hitem
  have hagent : (agentWorkload ((∅ : Labels).insert "app" "agent") [agentPod]).Found ""
      (agentCluster ((∅ : Labels).insert "app" "agent")) agentEvent :=
    ⟨rfl, rfl, rfl, rfl, rfl⟩
  obtain rfl := hfound.eq hagent
  revert item
  decide

/-- Without match labels, the pods of other workloads are merged too. -/
theorem agent_merges_site :
    Serves (· ∈ [agentPod, sitePod]) (agentCluster ∅) ∧
      ¬ OwnPodsOnly "" (· ∈ [agentPod, sitePod]) (agentCluster ∅) agentEvent := by
  have hagent : (agentWorkload ∅ [agentPod, sitePod]).Found "" (agentCluster ∅) agentEvent :=
    ⟨rfl, rfl, rfl, rfl, rfl⟩
  refine ⟨serves_agentCluster ∅, ?_⟩
  exact not_ownPodsOnly (serves_agentCluster ∅) (by decide) hagent
    (List.mem_cons_of_mem agentPod List.mem_cons_self) (by decide)

end Kapprofiler.Controller
