import Kapprofiler.Controller.MergedContainers
import Kapprofiler.Controller.System

/-! # The handling of one event

The handler of an event makes its requests one by one, and anyone else may write
profiles in between. In a cluster that stays as it is meanwhile, what the handler goes
on with is determined by the objects it finds and by the profiles it has read.
-/

namespace Kapprofiler.Controller

open Collector Foundation

structure Handling where
  state : HandlerState
  profiles : ProfileStore

/-- The handler makes a request, or others write. -/
inductive HandlingLabel
  | request (answers : Answers)
  | others (profiles : ProfileStore)

def handlingStep (storeNamespace : String) (cluster : Cluster) (handling : Handling) :
    HandlingLabel → Option Handling
  | .request answers =>
      (handlerStep storeNamespace { answers with cluster := cluster } handling.profiles
        handling.state).map fun next => ⟨next.1, next.2⟩
  | .others profiles => some { handling with profiles := profiles }

/-- The handling of an event, whatever is stored. -/
def handlingMachine (storeNamespace : String) (cluster : Cluster) (event : ProfileEvent) :
    Machine Handling HandlingLabel where
  init handling := handling.state = handleApplicationProfile event
  step := handlingStep storeNamespace cluster

variable {storeNamespace : String} {cluster : Cluster} {event : ProfileEvent}

/-! ## What is found -/

/-- The workload of a pod, and the pods that are listed for it. -/
structure PodWorkload where
  pod : Pod
  owner : OwnerReference
  kind : WorkloadKind
  workload : Workload
  pods : List Pod

/-- The pod is the event's, and its first owner is the workload. -/
structure PodWorkload.Found (storeNamespace : String) (cluster : Cluster) (event : ProfileEvent)
    (found : PodWorkload) : Prop where
  pod : cluster.pods (objectOf storeNamespace event).1 (objectOf storeNamespace event).2 =
    some found.pod
  owner : found.pod.ownerReferences.head? = some found.owner
  kind : WorkloadKind.ofOwner found.owner.kind = some found.kind
  workload : getWorkload cluster found.pod.nameSpace found.owner.name found.kind =
    some found.workload
  pods : cluster.listPods found.pod.nameSpace found.workload.selector = some found.pods

/-- There is only one workload of the event's pod. -/
theorem PodWorkload.Found.eq {first second : PodWorkload}
    (hfirst : first.Found storeNamespace cluster event)
    (hsecond : second.Found storeNamespace cluster event) : first = second := by
  obtain ⟨pod, owner, kind, workload, pods⟩ := first
  obtain ⟨otherPod, otherOwner, otherKind, otherWorkload, otherPods⟩ := second
  obtain rfl : pod = otherPod := Option.some.inj (hfirst.pod.symm.trans hsecond.pod)
  obtain rfl : owner = otherOwner := Option.some.inj (hfirst.owner.symm.trans hsecond.owner)
  obtain rfl : kind = otherKind := Option.some.inj (hfirst.kind.symm.trans hsecond.kind)
  obtain rfl : workload = otherWorkload :=
    Option.some.inj (hfirst.workload.symm.trans hsecond.workload)
  obtain rfl : pods = otherPods := Option.some.inj (hfirst.pods.symm.trans hsecond.pods)
  rfl

def PodWorkload.plan (event : ProfileEvent) (found : PodWorkload)
    (containers : List ContainerProfile) : Plan where
  kind := found.kind
  name := found.workload.name
  nameSpace := found.pod.nameSpace
  labels := event.profile.labels
  containers := containers

/-- A replica set, and the deployment it belongs to. -/
structure OwnedReplicaSet where
  replicaSet : Workload
  owner : OwnerReference

/-- The replica set is the event's, and no pod is called like it. -/
structure OwnedReplicaSet.Found (storeNamespace : String) (cluster : Cluster)
    (event : ProfileEvent) (found : OwnedReplicaSet) : Prop where
  pod : cluster.pods (objectOf storeNamespace event).1 (objectOf storeNamespace event).2 = none
  replicaSet : cluster.replicaSets (objectOf storeNamespace event).1
    (objectOf storeNamespace event).2 = some found.replicaSet
  owner : found.replicaSet.ownerReferences.head? = some found.owner
  deployment : found.owner.kind = "Deployment"

def OwnedReplicaSet.plan (event : ProfileEvent) (found : OwnedReplicaSet) : Plan where
  kind := .deployment
  name := found.owner.name
  nameSpace := found.replicaSet.nameSpace
  labels := event.profile.labels
  containers := event.profile.spec.containers

/-- The profile is stored for the pod. -/
def StoredFor (storeNamespace : String) (profiles : ProfileStore) (item : Pod)
    (profile : ApplicationProfile) : Prop :=
  ∃ version, profiles.get (profileKey storeNamespace "pod" item.name item.nameSpace) =
    some ⟨profile, version⟩

/-- Where a profile is stored under every name, all pods have one. -/
theorem exists_storedFor (storeNamespace : String) {profiles : ProfileStore}
    (hfull : ∀ key, ∃ object, profiles.get key = some object) (pods : List Pod) :
    ∃ stored, List.Forall₂ (StoredFor storeNamespace profiles) pods stored := by
  induction pods with
  | nil => exact ⟨[], .nil⟩
  | cons item pods ih =>
      obtain ⟨stored, hstored⟩ := ih
      obtain ⟨object, hobject⟩ := hfull (profileKey storeNamespace "pod" item.name item.nameSpace)
      exact ⟨object.value :: stored, .cons ⟨object.version, hobject⟩ hstored⟩

/-- What the handler may have decided to write, given the profiles it may have read. -/
inductive Planned (storeNamespace : String) (cluster : Cluster) (event : ProfileEvent)
    (read : Pod → ApplicationProfile → Prop) : Plan → Prop
  | workload (found : PodWorkload) (profiles : List ApplicationProfile)
      (containers : List ContainerProfile) (hfound : found.Found storeNamespace cluster event)
      (hread : List.Forall₂ read found.pods profiles) (hmerged : Merged profiles containers) :
      Planned storeNamespace cluster event read (found.plan event containers)
  | deployment (found : OwnedReplicaSet) (hfound : found.Found storeNamespace cluster event) :
      Planned storeNamespace cluster event read (found.plan event)

/-- What the handler has found before its next request. -/
def Justified (storeNamespace : String) (cluster : Cluster) (event : ProfileEvent)
    (read : Pod → ApplicationProfile → Prop) : HandlerState → Prop
  | .idle => True
  | .getPod current => current = event
  | .getReplicaSet current => current = event ∧
      cluster.pods (objectOf storeNamespace event).1 (objectOf storeNamespace event).2 = none
  | .getWorkload current pod kind name => current = event ∧
      cluster.pods (objectOf storeNamespace event).1 (objectOf storeNamespace event).2 =
        some pod ∧
      ∃ owner, pod.ownerReferences.head? = some owner ∧
        WorkloadKind.ofOwner owner.kind = some kind ∧ owner.name = name
  | .listPods current pod kind workload => current = event ∧
      cluster.pods (objectOf storeNamespace event).1 (objectOf storeNamespace event).2 =
        some pod ∧
      ∃ owner, pod.ownerReferences.head? = some owner ∧
        WorkloadKind.ofOwner owner.kind = some kind ∧
        getWorkload cluster pod.nameSpace owner.name kind = some workload
  | .getPodProfiles current pod kind name pods containersMap => current = event ∧
      ∃ found : PodWorkload, found.Found storeNamespace cluster event ∧
        found.pod = pod ∧ found.kind = kind ∧ found.workload.name = name ∧
        ∃ visited profiles, found.pods = visited ++ pods ∧
          List.Forall₂ read visited profiles ∧ containersMap = profiles.foldl addPod []
  | .get plan => Planned storeNamespace cluster event read plan
  | .create plan => Planned storeNamespace cluster event read plan
  | .patch plan => Planned storeNamespace cluster event read plan

section Justified

variable {read more : Pod → ApplicationProfile → Prop}

theorem Planned.mono (hmore : ∀ item profile, read item profile → more item profile)
    {plan : Plan} (hplanned : Planned storeNamespace cluster event read plan) :
    Planned storeNamespace cluster event more plan := by
  cases hplanned with
  | workload found profiles containers hfound hread hmerged =>
      exact .workload found profiles containers hfound (hread.imp hmore) hmerged
  | deployment found hfound => exact .deployment found hfound

theorem Justified.mono (hmore : ∀ item profile, read item profile → more item profile)
    {state : HandlerState} (hstate : Justified storeNamespace cluster event read state) :
    Justified storeNamespace cluster event more state := by
  cases state with
  | idle => trivial
  | getPod | getReplicaSet | getWorkload | listPods => exact hstate
  | getPodProfiles =>
      obtain ⟨hevent, found, hfound, hpod, hkind, hname, visited, profiles, hpods, hread, hmap⟩ :=
        hstate
      exact ⟨hevent, found, hfound, hpod, hkind, hname, visited, profiles, hpods,
        hread.imp hmore, hmap⟩
  | get | create | patch => exact Planned.mono hmore hstate

/-- The handler merges the next pod's profile, or is done with all. -/
theorem Justified.visit {answers : Answers} {profiles after : ProfileStore}
    {current : ProfileEvent} {pod : Pod} {kind : WorkloadKind} {name : String} {pods : List Pod}
    {containersMap : List ContainerProfile} {next : HandlerState}
    (hstate : Justified storeNamespace cluster event read
      (.getPodProfiles current pod kind name pods containersMap))
    (hread : ∀ item profile, StoredFor storeNamespace profiles item profile → read item profile)
    (hstep : handlerStep storeNamespace { answers with cluster := cluster } profiles
      (.getPodProfiles current pod kind name pods containersMap) = some (next, after)) :
    Justified storeNamespace cluster event read next := by
  obtain ⟨rfl, found, hfound, rfl, rfl, rfl, visited, merged, hpods, hvisited, rfl⟩ := hstate
  cases pods with
  | nil =>
      simp only [handlerStep] at hstep
      split at hstep
      next hperm =>
        cases hstep
        rw [List.append_nil] at hpods
        exact .workload found merged _ hfound (hpods ▸ hvisited) hperm
      next => cases hstep
  | cons item pods =>
      simp only [handlerStep] at hstep
      split at hstep
      · cases hstep
        trivial
      next object hobject =>
        cases hstep
        refine ⟨rfl, found, hfound, rfl, rfl, rfl, visited ++ [item],
          merged ++ [object.value], ?_, ?_, ?_⟩
        · rw [hpods, List.append_assoc, List.singleton_append]
        · exact List.rel_append hvisited
            (.cons (hread item object.value ⟨object.version, of_request hobject⟩) .nil)
        · rw [List.foldl_append]
          rfl

/-- A request finds what the next one is made for. -/
theorem Justified.step {answers : Answers} {profiles after : ProfileStore}
    {state next : HandlerState} (hstate : Justified storeNamespace cluster event read state)
    (hread : ∀ item profile, StoredFor storeNamespace profiles item profile → read item profile)
    (hstep : handlerStep storeNamespace { answers with cluster := cluster } profiles state =
      some (next, after)) :
    Justified storeNamespace cluster event read next := by
  cases state with
  | idle => cases hstep
  | getPod current =>
      obtain rfl := hstate
      simp only [handlerStep] at hstep
      split at hstep
      next hnone =>
        cases hstep
        exact ⟨rfl, hnone⟩
      next pod hpod =>
        split at hstep
        · cases hstep
          trivial
        next owner howner =>
          split at hstep
          · cases hstep
            trivial
          next kind hkind =>
            cases hstep
            exact ⟨rfl, hpod, owner, howner, hkind, rfl⟩
  | getReplicaSet current =>
      obtain ⟨rfl, hnone⟩ := hstate
      simp only [handlerStep] at hstep
      split at hstep
      · cases hstep
        trivial
      next replicaSet hreplicaSet =>
        split at hstep
        · cases hstep
          trivial
        next owner howner =>
          split at hstep
          next hdeployment =>
            cases hstep
            -- The one plan that is made of the event itself, without reading pods.
            exact .deployment ⟨replicaSet, owner⟩ ⟨hnone, hreplicaSet, howner, hdeployment⟩
          next =>
            cases hstep
            trivial
  | getWorkload current pod kind name =>
      obtain ⟨rfl, hpod, owner, howner, hkind, rfl⟩ := hstate
      simp only [handlerStep] at hstep
      split at hstep
      · cases hstep
        trivial
      next workload hworkload =>
        cases hstep
        exact ⟨rfl, hpod, owner, howner, hkind, hworkload⟩
  | listPods current pod kind workload =>
      obtain ⟨rfl, hpod, owner, howner, hkind, hworkload⟩ := hstate
      simp only [handlerStep] at hstep
      split at hstep
      · cases hstep
        trivial
      next pods hpods =>
        cases hstep
        exact ⟨rfl, ⟨pod, owner, kind, workload, pods⟩, ⟨hpod, howner, hkind, hworkload, hpods⟩,
          rfl, rfl, rfl, [], [], rfl, .nil, rfl⟩
  | getPodProfiles current pod kind name pods containersMap => exact hstate.visit hread hstep
  | get plan =>
      simp only [handlerStep] at hstep
      split at hstep
      · cases hstep
        exact hstate
      next =>
        split at hstep <;> cases hstep
        · trivial
        · exact hstate
  | create plan =>
      simp only [handlerStep] at hstep
      split at hstep <;> cases hstep <;> trivial
  | patch plan =>
      simp only [handlerStep] at hstep
      split at hstep <;> cases hstep <;> trivial

end Justified

/-! ## Runs -/

/-- The profile was stored for the pod at some point of the run. -/
def Seen (storeNamespace : String) (cluster : Cluster) (event : ProfileEvent) (start : Handling)
    (labels : List HandlingLabel) (item : Pod) (profile : ApplicationProfile) : Prop :=
  ∃ before middle, before <+: labels ∧
    (handlingMachine storeNamespace cluster event).run start before = some middle ∧
    StoredFor storeNamespace middle.profiles item profile

theorem Seen.mono {start : Handling} {labels more : List HandlingLabel}
    (hlabels : labels <+: more) {item : Pod} {profile : ApplicationProfile}
    (hseen : Seen storeNamespace cluster event start labels item profile) :
    Seen storeNamespace cluster event start more item profile := by
  obtain ⟨before, middle, hbefore, hrun, hstored⟩ := hseen
  exact ⟨before, middle, hbefore.trans hlabels, hrun, hstored⟩

theorem justified_handleApplicationProfile (read : Pod → ApplicationProfile → Prop) :
    Justified storeNamespace cluster event read (handleApplicationProfile event) := by
  unfold handleApplicationProfile
  split
  · trivial
  · rfl

/-- Whatever the handler goes on with, it has found the objects and read the profiles. -/
theorem justified_of_run {start last : Handling} {labels : List HandlingLabel}
    (hstart : start.state = handleApplicationProfile event)
    (hrun : (handlingMachine storeNamespace cluster event).run start labels = some last) :
    Justified storeNamespace cluster event
      (Seen storeNamespace cluster event start labels) last.state := by
  refine Machine.run_history_invariant _ (fun labels last =>
    Justified storeNamespace cluster event
      (Seen storeNamespace cluster event start labels) last.state) ?_ ?_ hrun
  · rw [hstart]
    exact justified_handleApplicationProfile _
  · intro labels state label next hbefore hjustified hstep
    have hmono : ∀ item profile, Seen storeNamespace cluster event start labels item profile →
        Seen storeNamespace cluster event start (labels ++ [label]) item profile :=
      fun _ _ hseen => hseen.mono (List.prefix_append labels [label])
    cases label with
    | request answers =>
        obtain ⟨⟨after, profiles⟩, hhandler, rfl⟩ := Option.map_eq_some_iff.mp hstep
        refine (hjustified.mono hmono).step ?_ hhandler
        intro item profile hstored
        exact ⟨labels, state, List.prefix_append labels _, hbefore, hstored⟩
    | others profiles =>
        cases hstep
        exact hjustified.mono hmono

/-- A partial profile makes the handler do nothing. -/
theorem idle_of_marked (hmarked : event.profile.labels.get partialLabel = "true")
    {handling : Handling}
    (hreach : (handlingMachine storeNamespace cluster event).Reachable handling) :
    handling.state = .idle := by
  apply hreach.invariant
  · intro start hstart
    exact hstart.trans (if_pos hmarked)
  · intro state label next hidle hstep
    cases label with
    | request answers =>
        obtain ⟨after, hhandler, _⟩ := Option.map_eq_some_iff.mp hstep
        rw [hidle] at hhandler
        cases hhandler
    | others profiles =>
        cases hstep
        exact hidle

/-- What the handler reaches the request for has been planned. -/
theorem planned_of_reachable {handling : Handling} {plan : Plan}
    (hreach : (handlingMachine storeNamespace cluster event).Reachable handling)
    (hplan : handling.state = .create plan ∨ handling.state = .patch plan) :
    event.profile.labels.get partialLabel ≠ "true" ∧
      ∃ read, Planned storeNamespace cluster event read plan := by
  constructor
  · intro hmarked
    rw [idle_of_marked hmarked hreach] at hplan
    rcases hplan with h | h <;> cases h
  · obtain ⟨start, labels, hstart, hrun⟩ := hreach
    have hjustified := justified_of_run hstart hrun
    rcases hplan with h | h <;> rw [h] at hjustified <;> exact ⟨_, hjustified⟩

/-! ## Undisturbed runs -/

/-- A handler that is done makes no more requests. -/
theorem requests_of_idle {start last : Handling} {requests : List Answers}
    (hidle : start.state = .idle)
    (hrun : (handlingMachine storeNamespace cluster event).run start
      (requests.map .request) = some last) : last = start := by
  cases requests with
  | nil =>
      rw [List.map_nil, Machine.run_nil, Option.some.injEq] at hrun
      exact hrun.symm
  | cons answers rest =>
      obtain ⟨next, hstep, _⟩ := (Machine.run_cons _).mp hrun
      obtain ⟨_, hhandler, _⟩ := Option.map_eq_some_iff.mp hstep
      rw [hidle] at hhandler
      cases hhandler

/-- A handler that is not done after its requests has not written. -/
theorem requests_keep {start last : Handling} {requests : List Answers}
    (hrun : (handlingMachine storeNamespace cluster event).run start
      (requests.map .request) = some last)
    (hlast : last.state ≠ .idle) : last.profiles = start.profiles := by
  induction requests generalizing start with
  | nil =>
      rw [List.map_nil, Machine.run_nil, Option.some.injEq] at hrun
      rw [hrun]
  | cons answers rest ih =>
      obtain ⟨next, hstep, hrest⟩ := (Machine.run_cons _).mp hrun
      obtain ⟨⟨state, profiles⟩, hhandler, rfl⟩ := Option.map_eq_some_iff.mp hstep
      rcases handlerStep_cases hhandler with ⟨hsame, _⟩ | ⟨_, _, hidle, _⟩ | ⟨_, _, hidle, _⟩
      · exact (ih hrest).trans hsame
      · exact absurd (requests_of_idle hidle hrest ▸ hidle) hlast
      · exact absurd (requests_of_idle hidle hrest ▸ hidle) hlast

section Undisturbed

variable {profiles : ProfileStore}

/-- With all profiles of the pods stored, the loop merges them. -/
theorem run_getPodProfiles {kind : WorkloadKind} {name : String} {pod : Pod} {pods : List Pod}
    {stored : List ApplicationProfile}
    (hstored : List.Forall₂ (StoredFor storeNamespace profiles) pods stored)
    (containersMap : List ContainerProfile) :
    (handlingMachine storeNamespace cluster event).run
        ⟨.getPodProfiles event pod kind name pods containersMap, profiles⟩
        (List.replicate pods.length (.request {})) =
      some ⟨.getPodProfiles event pod kind name [] (stored.foldl addPod containersMap),
        profiles⟩ := by
  induction hstored generalizing containersMap with
  | nil => rfl
  | @cons item profile pods stored hitem _ ih =>
      obtain ⟨version, hget⟩ := hitem
      rw [List.length_cons, List.replicate_succ, Machine.run_cons]
      refine ⟨⟨.getPodProfiles event pod kind name pods (addPod containersMap profile),
        profiles⟩, ?_, ih _⟩
      simp [handlingMachine, handlingStep, handlerStep, hget, request]

/-- The requests up to the listing of the pods. -/
theorem run_listPods {found : PodWorkload} (hfound : found.Found storeNamespace cluster event)
    (hwhole : event.profile.labels.get partialLabel ≠ "true") :
    (handlingMachine storeNamespace cluster event).run
        ⟨handleApplicationProfile event, profiles⟩ (List.replicate 3 (.request {})) =
      some ⟨.getPodProfiles event found.pod found.kind found.workload.name found.pods [],
        profiles⟩ := by
  simp [handleApplicationProfile, hwhole, Machine.run, handlingMachine, handlingStep,
    handlerStep, hfound.pod, hfound.owner, hfound.kind, hfound.workload, hfound.pods,
    List.replicate_succ]

/-- The handler comes to the profile of the pod's workload. -/
theorem run_workload {found : PodWorkload} (hfound : found.Found storeNamespace cluster event)
    (hwhole : event.profile.labels.get partialLabel ≠ "true")
    {stored : List ApplicationProfile}
    (hstored : List.Forall₂ (StoredFor storeNamespace profiles) found.pods stored) :
    (handlingMachine storeNamespace cluster event).run
        ⟨handleApplicationProfile event, profiles⟩
        (List.replicate (3 + (found.pods.length + 1)) (.request {})) =
      some ⟨.get (found.plan event (stored.foldl addPod [])), profiles⟩ := by
  rw [List.replicate_add, Machine.run_append]
  refine ⟨_, run_listPods hfound hwhole, ?_⟩
  rw [List.replicate_add, Machine.run_append]
  refine ⟨_, run_getPodProfiles hstored [], ?_⟩
  simp [Machine.run, handlingMachine, handlingStep, handlerStep, PodWorkload.plan]

/-- The handler comes to the profile of the replica set's deployment. -/
theorem run_deployment (profiles : ProfileStore) {found : OwnedReplicaSet}
    (hfound : found.Found storeNamespace cluster event)
    (hwhole : event.profile.labels.get partialLabel ≠ "true") :
    (handlingMachine storeNamespace cluster event).run
        ⟨handleApplicationProfile event, profiles⟩ (List.replicate 2 (.request {})) =
      some ⟨.get (found.plan event), profiles⟩ := by
  simp [handleApplicationProfile, hwhole, Machine.run, handlingMachine, handlingStep,
    handlerStep, hfound.pod, hfound.replicaSet, hfound.owner, hfound.deployment,
    OwnedReplicaSet.plan, List.replicate_succ]

end Undisturbed

/-! ## Nodes -/

section Nodes

variable {Node : Type} [DecidableEq Node] {controllers next last : Controllers Node} {node : Node}

/-- The label is no further event of the node, and its requests are answered from the
cluster. -/
def Handles (node : Node) (cluster : Cluster) (label : Label Node) : Prop :=
  (∀ event, label ≠ .event node event) ∧
    ∀ answers, label = .advance node answers → answers.cluster = cluster

/-- For the handler of a node, the steps of all others are writes of others. -/
theorem handlingStep_of_step {label : Label Node}
    (hstep : step storeNamespace controllers label = some next)
    (hlabel : Handles node cluster label) :
    ∃ own, handlingStep storeNamespace cluster ⟨controllers.handlers node, controllers.profiles⟩
      own = some ⟨next.handlers node, next.profiles⟩ := by
  have hothers : next.handlers node = controllers.handlers node →
      handlingStep storeNamespace cluster ⟨controllers.handlers node, controllers.profiles⟩
        (.others next.profiles) = some ⟨next.handlers node, next.profiles⟩ := by
    intro hsame
    rw [hsame]
    rfl
  rcases step_cases hstep with ⟨other, event, rfl, _, hhandlers⟩ |
    ⟨other, answers, state, rfl, hhandler, hhandlers⟩ | ⟨_, _, _, _, hhandlers, _⟩
  · have hne : node ≠ other := fun heq => hlabel.1 event (heq ▸ rfl)
    exact ⟨_, hothers (by rw [hhandlers, Function.update_of_ne hne])⟩
  · by_cases heq : node = other
    · subst heq
      refine ⟨.request answers, ?_⟩
      have hcluster : { answers with cluster := cluster } = answers := by
        rw [← hlabel.2 answers rfl]
      rw [handlingStep, hcluster, hhandler, hhandlers, Function.update_self]
      rfl
    · exact ⟨_, hothers (by rw [hhandlers, Function.update_of_ne heq])⟩
  · exact ⟨_, hothers (congrFun hhandlers node)⟩

/-- Between two events, a node of the machine of controllers handles the event as it would
alone. -/
theorem handling_of_run {labels : List (Label Node)} (event : ProfileEvent)
    (hlabels : ∀ label ∈ labels, Handles node cluster label)
    (hrun : (machine storeNamespace).run controllers labels = some last) :
    ∃ own, (handlingMachine storeNamespace cluster event).run
      ⟨controllers.handlers node, controllers.profiles⟩ own =
        some ⟨last.handlers node, last.profiles⟩ := by
  apply (machine storeNamespace).exists_run_of_step _ hrun
  intro state label hlabel next hstep
  obtain ⟨own, hown⟩ := handlingStep_of_step hstep (hlabels label hlabel)
  exact ⟨[own], (Machine.run_cons _).mpr ⟨_, hown, rfl⟩⟩

end Nodes

end Kapprofiler.Controller
