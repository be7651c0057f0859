import Kapprofiler.Controller.Dispatch
import Kapprofiler.Controller.PartialSiblings
import Kapprofiler.Controller.Rehandling

/-! # Where the controllers come to rest

The handlers of all nodes interleave, and what one of them decides to create or to patch,
another may write first. In a cluster that stays as it is, with the profiles of the pods as
they are and no request failing, they all compute the same for a workload. Once they are done,
its profile is what the profiles of the pods merge to, however the handlers were interleaved.
-/

namespace Kapprofiler.Controller

open Collector Foundation

variable {Node : Type} {storeNamespace : String} {cluster : Cluster} {event : ProfileEvent}

/-- Requests are answered from the cluster and do not fail, and no collector writes. -/
def Undisturbed (cluster : Cluster) : Label Node → Prop
  | .event _ _ => True
  | .advance _ answers => answers.cluster = cluster ∧ answers.getFails = false ∧
      answers.createFails = false ∧ answers.patchFails = false
  | .podProfile _ _ _ => False

/-- Some node was handed the event, and the profile is not partial. -/
def Heard (labels : List (Label Node)) (event : ProfileEvent) : Prop :=
  event.profile.labels.get partialLabel ≠ "true" ∧ ∃ node, .event node event ∈ labels

theorem Heard.mono {labels more : List (Label Node)} (hlabels : labels ⊆ more)
    (hheard : Heard labels event) : Heard more event := by
  obtain ⟨hwhole, node, hevent⟩ := hheard
  exact ⟨hwhole, node, hlabels hevent⟩

/-- Where the profile of the workload is stored. -/
def PodWorkload.key (storeNamespace : String) (found : PodWorkload) : String × String :=
  profileKey storeNamespace found.kind.name found.workload.name found.pod.nameSpace

/-- Whatever has its profile under the key of the workload has the workload's pods. -/
def PodWorkload.Unshared (storeNamespace : String) (cluster : Cluster) (found : PodWorkload) :
    Prop :=
  ∀ event (other : PodWorkload), other.Found storeNamespace cluster event →
    other.key storeNamespace = found.key storeNamespace → other.pods = found.pods

/-- Workloads are called as they are looked up. -/
def WorkloadsNamed (cluster : Cluster) : Prop :=
  ∀ nameSpace name kind workload, getWorkload cluster nameSpace name kind = some workload →
    workload.name = name

/-- Beside their workloads, no two profiles are stored under one name. -/
theorem PodWorkload.Found.unshared {found : PodWorkload} (hfound : found.Found "" cluster event)
    (hnamed : WorkloadsNamed cluster) : found.Unshared "" cluster := by
  intro otherEvent other hother hkey
  have hkinds := kind_eq_of_profileKey_eq other.kind.hyphen_notMem found.kind.hyphen_notMem hkey
  have hkind : other.kind = found.kind := by
    revert hkinds
    cases other.kind <;> cases found.kind <;> decide
  have hnameSpace : other.pod.nameSpace = found.pod.nameSpace := congrArg Prod.fst hkey
  have hname : other.workload.name = found.workload.name := by
    unfold PodWorkload.key at hkey
    rw [hkind, hnameSpace] at hkey
    exact name_eq_of_profileKey_eq hkey
  have hworkload := hother.workload
  rw [← hnamed _ _ _ _ hother.workload, hname, hkind, hnameSpace,
    hnamed _ _ _ _ hfound.workload, hfound.workload] at hworkload
  have hpods := hother.pods
  rw [← Option.some.inj hworkload, hnameSpace, hfound.pods] at hpods
  exact (Option.some.inj hpods).symm

/-- All pods of the workload have profiles. -/
def PodWorkload.Profiled (storeNamespace : String) (profiles : ProfileStore)
    (found : PodWorkload) : Prop :=
  ∀ item ∈ found.pods, ∃ profile, StoredFor storeNamespace profiles item profile

/-! ## What is written -/

section Written

variable {start profiles after : ProfileStore} {heard : ProfileEvent → Prop}
  {state next : HandlerState} {answers : Answers}

/-- The object has the containers that some handler computed, of the profiles at the start. -/
def WrittenAs (storeNamespace : String) (cluster : Cluster) (heard : ProfileEvent → Prop)
    (start : ProfileStore) (key : String × String) (object : Versioned ApplicationProfile) :
    Prop :=
  ∃ event plan, heard event ∧
    Planned storeNamespace cluster event (StoredFor storeNamespace start) plan ∧
    plan.key storeNamespace = key ∧ object.value.spec.containers = plan.containers

/-- The profile was final from the start, or was written since. -/
def Settled (storeNamespace : String) (cluster : Cluster) (heard : ProfileEvent → Prop)
    (start profiles : ProfileStore) (key : String × String) : Prop :=
  ∃ object, profiles.get key = some object ∧
    (start.get key = some object ∧ object.value.isFinal ∨
      WrittenAs storeNamespace cluster heard start key object)

/-- Nothing but profiles of workloads differs from the start, and these were written as
computed. -/
structure WrittenOnly (storeNamespace : String) (cluster : Cluster)
    (heard : ProfileEvent → Prop) (start profiles : ProfileStore) : Prop where
  others : ∀ key, ¬ IsWorkloadKey key → profiles.get key = start.get key
  written : ∀ key, profiles.get key = start.get key ∨
    ∃ object, profiles.get key = some object ∧
      WrittenAs storeNamespace cluster heard start key object

/-- A handler of the event has found what it goes on with, and is not done. Where it creates
a profile there was none at the start, and where it patches one there is one. -/
structure Underway (storeNamespace : String) (cluster : Cluster) (start profiles : ProfileStore)
    (event : ProfileEvent) (state : HandlerState) : Prop where
  busy : state ≠ .idle
  justified : Justified storeNamespace cluster event (StoredFor storeNamespace start) state
  create : ∀ plan, state = .create plan → start.get (plan.key storeNamespace) = none
  patch : ∀ plan, state = .patch plan →
    ∃ object, profiles.get (plan.key storeNamespace) = some object

/-- Every profile is as it was before, or is a workload's and was written as computed. -/
def Rewritten (storeNamespace : String) (cluster : Cluster) (heard : ProfileEvent → Prop)
    (start profiles after : ProfileStore) : Prop :=
  ∀ key, after.get key = profiles.get key ∨ IsWorkloadKey key ∧
    ∃ object, after.get key = some object ∧
      WrittenAs storeNamespace cluster heard start key object

theorem not_isWorkloadKey_pod (name nameSpace : String) :
    ¬ IsWorkloadKey (profileKey storeNamespace "pod" name nameSpace) := by
  intro hkey
  obtain ⟨rest, hrest⟩ := @profileKey_eq_kind_append storeNamespace "pod" name nameSpace
  exact hkey.ne_podKey (profileKey storeNamespace "pod" name nameSpace).1 rest (Prod.ext rfl hrest)

theorem WrittenOnly.storedFor_iff
    (hwritten : WrittenOnly storeNamespace cluster heard start profiles) {item : Pod}
    {profile : ApplicationProfile} :
    StoredFor storeNamespace profiles item profile ↔
      StoredFor storeNamespace start item profile := by
  unfold StoredFor
  rw [hwritten.others _ (not_isWorkloadKey_pod item.name item.nameSpace)]

theorem WrittenOnly.rewritten (hwritten : WrittenOnly storeNamespace cluster heard start profiles)
    (hrewritten : Rewritten storeNamespace cluster heard start profiles after) :
    WrittenOnly storeNamespace cluster heard start after := by
  refine ⟨?_, ?_⟩
  · intro key hkey
    rcases hrewritten key with hsame | ⟨hworkload, _⟩
    · exact hsame.trans (hwritten.others key hkey)
    · exact absurd hworkload hkey
  · intro key
    rcases hrewritten key with hsame | ⟨_, hobject⟩
    · rw [hsame]
      exact hwritten.written key
    · exact Or.inr hobject

theorem Settled.rewritten {key : String × String}
    (hsettled : Settled storeNamespace cluster heard start profiles key)
    (hrewritten : Rewritten storeNamespace cluster heard start profiles after) :
    Settled storeNamespace cluster heard start after key := by
  obtain ⟨object, hobject, horigin⟩ := hsettled
  rcases hrewritten key with hsame | ⟨_, written, hwritten, has⟩
  · exact ⟨object, hsame.trans hobject, horigin⟩
  · exact ⟨written, hwritten, Or.inr has⟩

/-- What others write takes no profile away that a handler is about to patch. -/
theorem Underway.rewritten (hunderway : Underway storeNamespace cluster start profiles event state)
    (hrewritten : Rewritten storeNamespace cluster heard start profiles after) :
    Underway storeNamespace cluster start after event state := by
  refine ⟨hunderway.busy, hunderway.justified, hunderway.create, ?_⟩
  intro plan hplan
  obtain ⟨object, hobject⟩ := hunderway.patch plan hplan
  rcases hrewritten (plan.key storeNamespace) with hsame | ⟨_, written, hwritten, _⟩
  · exact ⟨object, hsame.trans hobject⟩
  · exact ⟨written, hwritten⟩

/-- A request changes at most the profile that it is computed for. -/
theorem rewritten_of_handlerStep (hheard : heard event)
    (hjustified : Justified storeNamespace cluster event (StoredFor storeNamespace start) state)
    (hstep : handlerStep storeNamespace answers profiles state = some (next, after)) :
    Rewritten storeNamespace cluster heard start profiles after := by
  intro key
  rcases handlerStep_cases hstep with
    ⟨rfl, _⟩ | ⟨plan, rfl, _, hcreate⟩ | ⟨plan, rfl, _, hpatch⟩
  · exact Or.inl rfl
  · obtain ⟨_, rfl⟩ := VersionedStore.create_eq_some.mp hcreate
    by_cases hkey : key = plan.key storeNamespace
    · subst hkey
      exact Or.inr ⟨plan.isWorkloadKey, _, profiles.put_get _ _,
        event, plan, hheard, hjustified, rfl, rfl⟩
    · exact Or.inl (profiles.put_get_of_ne _ hkey)
  · obtain ⟨object, hobject, rfl⟩ := VersionedStore.patch_eq_some.mp hpatch
    by_cases hkey : key = plan.key storeNamespace
    · subst hkey
      obtain ⟨version, hget⟩ := profiles.write_get (plan.mergePatch object.value) hobject
      exact Or.inr ⟨plan.isWorkloadKey, _, hget, event, plan, hheard, hjustified, rfl, rfl⟩
    · exact Or.inl (profiles.write_get_of_ne object _ hkey)

/-! ## One handler -/

/-- A handler decides to create what it has not found. -/
theorem absent_of_create {plan : Plan} (hget : answers.getFails = false)
    (hstep : handlerStep storeNamespace answers profiles state = some (.create plan, after)) :
    profiles.get (plan.key storeNamespace) = none := by
  cases state with
  | idle => cases hstep
  | getPod current | getReplicaSet current | getWorkload current pod kind owner
  | listPods current pod kind workload | create other | patch other =>
      simp only [handlerStep] at hstep
      repeat' split at hstep
      all_goals cases hstep
  | getPodProfiles current pod kind name pods containersMap =>
      cases pods with
      | nil =>
          simp only [handlerStep] at hstep
          split at hstep <;> cases hstep
      | cons item pods =>
          simp only [handlerStep] at hstep
          split at hstep <;> cases hstep
  | get other =>
      simp only [handlerStep] at hstep
      split at hstep
      next hnone =>
        cases hstep
        exact (request_eq_none.mp hnone).resolve_left (by simp [hget])
      next => split at hstep <;> cases hstep

/-- A handler that is not done after its request is still underway. -/
theorem Underway.step (hunderway : Underway storeNamespace cluster start profiles event state)
    (hwritten : WrittenOnly storeNamespace cluster heard start profiles)
    (hcluster : answers.cluster = cluster) (hget : answers.getFails = false)
    (hstep : handlerStep storeNamespace answers profiles state = some (next, after))
    (hbusy : next ≠ .idle) : Underway storeNamespace cluster start after event next := by
  refine ⟨hbusy, ?_, ?_, ?_⟩
  · have hrequest : handlerStep storeNamespace { answers with cluster := cluster } profiles state =
        some (next, after) := by
      rw [← hcluster]
      exact hstep
    exact hunderway.justified.step (fun _ _ => hwritten.storedFor_iff.mp) hrequest
  · rintro plan rfl
    have habsent := absent_of_create hget hstep
    rcases hwritten.written (plan.key storeNamespace) with hsame | ⟨object, hobject, _⟩
    · exact hsame.symm.trans habsent
    · rw [habsent] at hobject
      cases hobject
  · rintro plan rfl
    rcases handlerStep_cases hstep with ⟨rfl, hread⟩ | ⟨_, _, hidle, _⟩ | ⟨_, _, hidle, _⟩
    · obtain ⟨object, hobject, _⟩ := hread plan rfl
      exact ⟨object, hobject⟩
    · cases hidle
    · cases hidle

/-- What is planned for the event of a pod, is planned for the pod's workload. -/
theorem PodWorkload.Found.key_eq {found : PodWorkload} {plan : Plan}
    {read : Pod → ApplicationProfile → Prop}
    (hfound : found.Found storeNamespace cluster event)
    (hplanned : Planned storeNamespace cluster event read plan) :
    plan.key storeNamespace = found.key storeNamespace := by
  cases hplanned with
  | workload other profiles containers hother => rw [hfound.eq hother]; rfl
  | deployment other hother =>
      have hpod := hother.pod
      rw [hfound.pod] at hpod
      cases hpod

/-- Undisturbed, a handler is done when the profile of the workload is settled. -/
theorem Underway.settled {found : PodWorkload} {node : Node}
    (hunderway : Underway storeNamespace cluster start profiles event state)
    (hheard : heard event) (hwritten : WrittenOnly storeNamespace cluster heard start profiles)
    (hfound : found.Found storeNamespace cluster event)
    (hprofiled : found.Profiled storeNamespace start)
    (hanswers : Undisturbed cluster (.advance node answers))
    (hstep : handlerStep storeNamespace answers profiles state = some (.idle, after)) :
    Settled storeNamespace cluster heard start after (found.key storeNamespace) := by
  obtain ⟨hcluster, hget, hcreate, hpatch⟩ := hanswers
  have hjustified := hunderway.justified
  cases state with
  | idle => cases hstep
  | getPod current =>
      obtain rfl := hjustified
      simp [handlerStep, hcluster, hfound.pod, hfound.owner, hfound.kind] at hstep
  | getReplicaSet current =>
      obtain ⟨rfl, hnone⟩ := hjustified
      rw [hfound.pod] at hnone
      cases hnone
  | getWorkload current pod kind name =>
      obtain ⟨rfl, hpod, owner, howner, hkind, rfl⟩ := hjustified
      obtain rfl := Option.some.inj (hfound.pod.symm.trans hpod)
      obtain rfl := Option.some.inj (hfound.owner.symm.trans howner)
      obtain rfl := Option.some.inj (hfound.kind.symm.trans hkind)
      simp [handlerStep, hcluster, hfound.workload] at hstep
  | listPods current pod kind workload =>
      obtain ⟨rfl, hpod, owner, howner, hkind, hworkload⟩ := hjustified
      obtain rfl := Option.some.inj (hfound.pod.symm.trans hpod)
      obtain rfl := Option.some.inj (hfound.owner.symm.trans howner)
      obtain rfl := Option.some.inj (hfound.kind.symm.trans hkind)
      obtain rfl := Option.some.inj (hfound.workload.symm.trans hworkload)
      simp [handlerStep, hcluster, hfound.pods] at hstep
  | getPodProfiles current pod kind name pods containersMap =>
      cases pods with
      | nil =>
          simp only [handlerStep] at hstep
          split at hstep <;> cases hstep
      | cons item pods =>
          obtain ⟨rfl, other, hother, rfl, rfl, rfl, visited, merged, hpods, _⟩ := hjustified
          have hitem : item ∈ found.pods := by
            rw [hfound.eq hother, hpods]
            exact List.mem_append_right _ List.mem_cons_self
          obtain ⟨profile, hprofile⟩ := hprofiled item hitem
          obtain ⟨version, hversion⟩ := hwritten.storedFor_iff.mpr hprofile
          simp [handlerStep, hget, request, hversion] at hstep
  | get plan =>
      rw [← hfound.key_eq hjustified]
      simp only [handlerStep] at hstep
      split at hstep
      · cases hstep
      next existing hexisting =>
        split at hstep
        next hfinal =>
          cases hstep
          have hobject := of_request hexisting
          refine ⟨existing, hobject, ?_⟩
          rcases hwritten.written (plan.key storeNamespace) with hsame | ⟨object, hread, has⟩
          · exact Or.inl ⟨hsame.symm.trans hobject, hfinal⟩
          · obtain rfl := Option.some.inj (hread.symm.trans hobject)
            exact Or.inr has
        next => cases hstep
  | create plan =>
      rw [← hfound.key_eq hjustified]
      simp only [handlerStep, request, hcreate] at hstep
      split at hstep
      next hexists =>
        -- Another handler was faster.
        cases hstep
        obtain ⟨object, hobject⟩ := VersionedStore.create_eq_none.mp hexists
        rcases hwritten.written (plan.key storeNamespace) with hsame | ⟨other, hother, has⟩
        · rw [hsame, hunderway.create plan rfl] at hobject
          cases hobject
        · exact ⟨other, hother, Or.inr has⟩
      next hcreated =>
        cases hstep
        obtain ⟨_, rfl⟩ := VersionedStore.create_eq_some.mp hcreated
        exact ⟨_, profiles.put_get _ _, Or.inr ⟨event, plan, hheard, hjustified, rfl, rfl⟩⟩
  | patch plan =>
      rw [← hfound.key_eq hjustified]
      obtain ⟨object, hobject⟩ := hunderway.patch plan rfl
      rw [handlerStep, VersionedStore.patch_of_get plan.mergePatch hobject] at hstep
      simp only [request, hpatch] at hstep
      cases hstep
      obtain ⟨version, hwrite⟩ := profiles.write_get (plan.mergePatch object.value) hobject
      exact ⟨_, hwrite, Or.inr ⟨event, plan, hheard, hjustified, rfl, rfl⟩⟩

end Written

/-! ## All handlers -/

section Converging

variable [DecidableEq Node] {start : ProfileStore} {heard more : ProfileEvent → Prop}
  {controllers next : Controllers Node}

/-- Every handler works for an event that was heard, and for every such event the profile of
the workload is settled or some handler is underway to it. -/
structure Converging (storeNamespace : String) (cluster : Cluster) (heard : ProfileEvent → Prop)
    (start : ProfileStore) (controllers : Controllers Node) : Prop where
  written : WrittenOnly storeNamespace cluster heard start controllers.profiles
  handlers : ∀ node, controllers.handlers node = .idle ∨ ∃ event, heard event ∧
    Underway storeNamespace cluster start controllers.profiles event (controllers.handlers node)
  settled : ∀ event (found : PodWorkload), heard event →
    found.Found storeNamespace cluster event → found.Profiled storeNamespace start →
    Settled storeNamespace cluster heard start controllers.profiles (found.key storeNamespace) ∨
      ∃ node, Underway storeNamespace cluster start controllers.profiles event
        (controllers.handlers node)

/-! ### More events -/

omit [DecidableEq Node] in
theorem heard_snoc_advance {labels : List (Label Node)} {node : Node} {answers : Answers} :
    Heard (labels ++ [.advance node answers]) event ↔ Heard labels event := by
  simp [Heard]

omit [DecidableEq Node] in
theorem heard_snoc_event {labels : List (Label Node)} {node : Node} {other : ProfileEvent} :
    Heard (labels ++ [.event node event]) other ↔
      Heard labels other ∨ other = event ∧ other.profile.labels.get partialLabel ≠ "true" := by
  simp only [Heard, List.mem_append, List.mem_singleton, Label.event.injEq, exists_or]
  constructor
  · rintro ⟨hwhole, hold | ⟨_, rfl, rfl⟩⟩
    · exact Or.inl ⟨hwhole, hold⟩
    · exact Or.inr ⟨rfl, hwhole⟩
  · rintro (⟨hwhole, hold⟩ | ⟨rfl, hwhole⟩)
    · exact ⟨hwhole, Or.inl hold⟩
    · exact ⟨hwhole, Or.inr ⟨node, rfl, rfl⟩⟩

theorem WrittenAs.mono {key : String × String} {object : Versioned ApplicationProfile}
    (hmore : ∀ event, heard event → more event)
    (hwritten : WrittenAs storeNamespace cluster heard start key object) :
    WrittenAs storeNamespace cluster more start key object := by
  obtain ⟨event, plan, hheard, hplanned⟩ := hwritten
  exact ⟨event, plan, hmore event hheard, hplanned⟩

theorem WrittenOnly.mono {profiles : ProfileStore} (hmore : ∀ event, heard event → more event)
    (hwritten : WrittenOnly storeNamespace cluster heard start profiles) :
    WrittenOnly storeNamespace cluster more start profiles := by
  refine ⟨hwritten.others, fun key => ?_⟩
  rcases hwritten.written key with hsame | ⟨object, hobject, has⟩
  · exact Or.inl hsame
  · exact Or.inr ⟨object, hobject, has.mono hmore⟩

theorem Settled.mono {profiles : ProfileStore} {key : String × String}
    (hmore : ∀ event, heard event → more event)
    (hsettled : Settled storeNamespace cluster heard start profiles key) :
    Settled storeNamespace cluster more start profiles key := by
  obtain ⟨object, hobject, horigin⟩ := hsettled
  exact ⟨object, hobject, horigin.imp_right (·.mono hmore)⟩

theorem Underway.begin {profiles : ProfileStore}
    (hwhole : event.profile.labels.get partialLabel ≠ "true") :
    Underway storeNamespace cluster start profiles event (handleApplicationProfile event) := by
  rw [handleApplicationProfile, if_neg hwhole]
  exact ⟨by simp, rfl, by simp, by simp⟩

/-- An idle node begins to handle an event. -/
theorem Converging.begin {labels : List (Label Node)} {node : Node}
    (hconverging : Converging storeNamespace cluster (Heard labels) start controllers)
    (hidle : controllers.handlers node = .idle) (hprofiles : next.profiles = controllers.profiles)
    (hhandlers : next.handlers =
      Function.update controllers.handlers node (handleApplicationProfile event)) :
    Converging storeNamespace cluster (Heard (labels ++ [.event node event])) start next := by
  have hmore : ∀ other, Heard labels other → Heard (labels ++ [.event node event]) other :=
    fun _ hheard => heard_snoc_event.mpr (Or.inl hheard)
  have hself : next.handlers node = handleApplicationProfile event := by
    rw [hhandlers, Function.update_self]
  have hothers : ∀ other, other ≠ node → next.handlers other = controllers.handlers other := by
    intro other hother
    rw [hhandlers, Function.update_of_ne hother]
  refine ⟨?_, ?_, ?_⟩
  · rw [hprofiles]
    exact hconverging.written.mono hmore
  · intro other
    rw [hprofiles]
    by_cases heq : other = node
    · subst heq
      rw [hself]
      by_cases hwhole : event.profile.labels.get partialLabel = "true"
      · exact Or.inl (if_pos hwhole)
      · exact Or.inr ⟨event, heard_snoc_event.mpr (Or.inr ⟨rfl, hwhole⟩), Underway.begin hwhole⟩
    · rw [hothers other heq]
      rcases hconverging.handlers other with hdone | ⟨current, hheard, hunderway⟩
      · exact Or.inl hdone
      · exact Or.inr ⟨current, hmore current hheard, hunderway⟩
  · intro current found hheard hfound hprofiled
    rw [hprofiles]
    rcases heard_snoc_event.mp hheard with hold | ⟨rfl, hwhole⟩
    · rcases hconverging.settled current found hold hfound hprofiled with
        hsettled | ⟨other, hother⟩
      · exact Or.inl (hsettled.mono hmore)
      -- Whoever is underway is not idle, so it is not the node that begins.
      · have hne : other ≠ node := by
          rintro rfl
          exact hother.busy hidle
        refine Or.inr ⟨other, ?_⟩
        rw [hothers other hne]
        exact hother
    · refine Or.inr ⟨node, ?_⟩
      rw [hself]
      exact Underway.begin hwhole

/-! ### Requests -/

/-- A handler makes a request, and the others go on as before. -/
theorem Converging.request {node : Node} {answers : Answers} {state : HandlerState}
    (hconverging : Converging storeNamespace cluster heard start controllers)
    (hanswers : Undisturbed cluster (.advance node answers))
    (hstep : handlerStep storeNamespace answers controllers.profiles (controllers.handlers node) =
      some (state, next.profiles))
    (hhandlers : next.handlers = Function.update controllers.handlers node state) :
    Converging storeNamespace cluster heard start next := by
  rcases hconverging.handlers node with hidle | ⟨event, hheard, hunderway⟩
  · rw [hidle] at hstep
    cases hstep
  have hrewritten := rewritten_of_handlerStep hheard hunderway.justified hstep
  have hself : next.handlers node = state := by rw [hhandlers, Function.update_self]
  have hothers : ∀ other, other ≠ node → next.handlers other = controllers.handlers other := by
    intro other hother
    rw [hhandlers, Function.update_of_ne hother]
  have hnext : ∀ current, Underway storeNamespace cluster start controllers.profiles current
      (controllers.handlers node) → state ≠ .idle →
      Underway storeNamespace cluster start next.profiles current (next.handlers node) := by
    intro current hcurrent hbusy
    rw [hself]
    exact hcurrent.step hconverging.written hanswers.1 hanswers.2.1 hstep hbusy
  refine ⟨hconverging.written.rewritten hrewritten, ?_, ?_⟩
  · intro other
    by_cases heq : other = node
    · subst heq
      by_cases hidle : state = .idle
      · exact Or.inl (hself.trans hidle)
      · exact Or.inr ⟨event, hheard, hnext event hunderway hidle⟩
    · rw [hothers other heq]
      rcases hconverging.handlers other with hidle | ⟨current, hcurrent, hbusy⟩
      · exact Or.inl hidle
      · exact Or.inr ⟨current, hcurrent, hbusy.rewritten hrewritten⟩
  · intro current found hcurrent hfound hprofiled
    rcases hconverging.settled current found hcurrent hfound hprofiled with
      hsettled | ⟨other, hother⟩
    · exact Or.inl (hsettled.rewritten hrewritten)
    · by_cases heq : other = node
      · subst heq
        by_cases hidle : state = .idle
        -- The handler is done: the profile has just been settled.
        · subst hidle
          exact Or.inl
            (hother.settled hcurrent hconverging.written hfound hprofiled hanswers hstep)
        · exact Or.inr ⟨other, hnext current hother hidle⟩
      · refine Or.inr ⟨other, ?_⟩
        rw [hothers other heq]
        exact hother.rewritten hrewritten

theorem step_converging {labels : List (Label Node)} {label : Label Node}
    (hconverging : Converging storeNamespace cluster (Heard labels) start controllers)
    (hlabel : Undisturbed cluster label)
    (hstep : step storeNamespace controllers label = some next) :
    Converging storeNamespace cluster (Heard (labels ++ [label])) start next := by
  cases label with
  | event node event =>
      simp only [step] at hstep
      split at hstep
      next hidle =>
        cases hstep
        exact hconverging.begin hidle rfl rfl
      next => cases hstep
  | advance node answers =>
      have hheard : Heard (labels ++ [.advance node answers]) = Heard labels :=
        funext fun _ => propext heard_snoc_advance
      obtain ⟨⟨state, profiles⟩, hhandler, rfl⟩ := Option.map_eq_some_iff.mp hstep
      rw [hheard]
      exact hconverging.request hlabel hhandler rfl
  | podProfile nameSpace rest profile => exact hlabel.elim

omit [DecidableEq Node] in
theorem Initial.converging (hinit : Initial controllers) :
    Converging storeNamespace cluster (Heard ([] : List (Label Node))) controllers.profiles
      controllers := by
  refine ⟨⟨fun _ _ => rfl, fun _ => Or.inl rfl⟩, fun node => Or.inl (hinit node), ?_⟩
  rintro event found ⟨_, _, hevent⟩
  cases hevent

theorem converging_of_run {start last : Controllers Node} {labels : List (Label Node)}
    (hinit : Initial start) (hlabels : ∀ label ∈ labels, Undisturbed cluster label)
    (hrun : (machine storeNamespace).run start labels = some last) :
    Converging storeNamespace cluster (Heard labels) start.profiles last := by
  refine Machine.run_history_invariant _ (fun labels last =>
    (∀ label ∈ labels, Undisturbed cluster label) →
      Converging storeNamespace cluster (Heard labels) start.profiles last) ?_ ?_ hrun hlabels
  · exact fun _ => hinit.converging
  · intro labels state label next _ hbefore hstep hall
    refine step_converging (hbefore fun label hlabel => ?_) (hall label ?_) hstep
    · exact hall label (List.mem_append_left _ hlabel)
    · exact List.mem_append_right _ (List.mem_singleton_self label)

end Converging

/-- What is written under an unshared key is what the pods' profiles merge to. -/
theorem WrittenAs.merged {heard : ProfileEvent → Prop} {start : ProfileStore}
    {found : PodWorkload} {object : Versioned ApplicationProfile}
    {stored : List ApplicationProfile} (hfound : found.Found storeNamespace cluster event)
    (hunshared : found.Unshared storeNamespace cluster)
    (hstored : List.Forall₂ (StoredFor storeNamespace start) found.pods stored)
    (hwritten : WrittenAs storeNamespace cluster heard start (found.key storeNamespace) object) :
    Merged stored object.value.spec.containers := by
  obtain ⟨source, plan, _, hplanned, hkey, hcontainers⟩ := hwritten
  rw [hcontainers]
  cases hplanned with
  | workload other profiles containers hother hread hmerged =>
      rw [hunshared source other hother hkey] at hread
      rw [storedFor_unique hstored hread]
      exact hmerged
  | deployment other hother =>
      exact absurd hkey.symm
        (hfound.key_ne_deployment [] other.owner.name other.replicaSet.nameSpace)

/-- Undisturbed, the profile of the workload is what the profiles of its pods merge to, once
the handlers of all nodes are done and one was handed an event of a pod. -/
theorem workload_profile_converges [DecidableEq Node] {start last : Controllers Node}
    {labels : List (Label Node)} {found : PodWorkload} {stored : List ApplicationProfile}
    (hinit : Initial start) (hlabels : ∀ label ∈ labels, Undisturbed cluster label)
    (hrun : (machine storeNamespace).run start labels = some last)
    (hdone : ∀ node, last.handlers node = .idle) (hheard : Heard labels event)
    (hfound : found.Found storeNamespace cluster event)
    (hstored : List.Forall₂ (StoredFor storeNamespace start.profiles) found.pods stored)
    (hunshared : found.Unshared storeNamespace cluster) :
    ∃ object, last.profiles.get (found.key storeNamespace) = some object ∧
      (start.profiles.get (found.key storeNamespace) = some object ∧ object.value.isFinal ∨
        Merged stored object.value.spec.containers) := by
  have hconverging := converging_of_run hinit hlabels hrun
  have hprofiled : found.Profiled storeNamespace start.profiles := by
    intro item hitem
    obtain ⟨profile, _, hprofile⟩ := exists_of_mem_left hstored hitem
    exact ⟨profile, hprofile⟩
  rcases hconverging.settled event found hheard hfound hprofiled with hsettled | ⟨node, hnode⟩
  · obtain ⟨object, hobject, horigin⟩ := hsettled
    refine ⟨object, hobject, horigin.imp_right fun hwritten => ?_⟩
    exact hwritten.merged hfound hunshared hstored
  · exact absurd (hdone node) hnode.busy

/-- Two nodes, while the profiles of both pods of the daemon set are stored. -/
def agentNodes : Controllers Bool := ⟨fun _ => .idle, attachedStore "mount"⟩

/-- Both nodes are handed the event and take turns, so that neither finds a profile of the
daemon set, and the second one cannot create it any more. -/
def agentTurns : List (Label Bool) :=
  .event false agentEvent :: .event true agentEvent ::
    (List.range 8).flatMap fun _ =>
      [.advance false { cluster := attachedCluster }, .advance true { cluster := attachedCluster }]

theorem workloadsNamed_attachedCluster : WorkloadsNamed attachedCluster := by
  intro nameSpace name kind workload hworkload
  cases kind with
  | daemonSet =>
      simp only [getWorkload, attachedCluster, daemonSetCluster] at hworkload
      split at hworkload
      next hsame =>
        cases hworkload
        exact hsame.2.symm
      next => cases hworkload
  | deployment | replicaSet | statefulSet | cronJob | job => cases hworkload

theorem agent_profile_converges : ∃ last object,
    (machine "").run agentNodes agentTurns = some last ∧
      last.profiles.get ("default", "daemonset-agent") = some object ∧
      Merged [wholeProfile, attachedProfile "mount"] object.value.spec.containers := by
  have hlabels : ∀ label ∈ agentTurns, Undisturbed attachedCluster label := by
    intro label hlabel
    simp only [agentTurns, List.mem_cons, List.mem_flatMap, List.not_mem_nil, or_false] at hlabel
    rcases hlabel with rfl | rfl | ⟨_, _, rfl | rfl⟩
    · trivial
    · trivial
    · exact ⟨rfl, rfl, rfl, rfl⟩
    · exact ⟨rfl, rfl, rfl, rfl⟩
  have hstored : List.Forall₂ (StoredFor "" (attachedStore "mount")) attachedWorkload.pods
      [wholeProfile, attachedProfile "mount"] :=
    .cons ⟨1, rfl⟩ (.cons ⟨2, rfl⟩ .nil)
  obtain ⟨object, hobject, horigin⟩ := @workload_profile_converges
    _ _ _ _ _ agentNodes _ _ _ _ (fun _ => rfl) hlabels rfl (by intro node; cases node <;> rfl)
    ⟨by decide, false, List.mem_cons_self⟩ attachedWorkload_found hstored
    (attachedWorkload_found.unshared workloadsNamed_attachedCluster)
  refine ⟨_, object, rfl, hobject, horigin.resolve_left ?_⟩
  rintro ⟨hstart, _⟩
  cases hstart

end Kapprofiler.Controller
