import Kapprofiler.Controller.Immutability
import Kapprofiler.Controller.OwnPods
import Kapprofiler.Controller.ProfileNames

/-! # Handling an event again

The containers of a workload's profile are rebuilt from a map, in the order in which Go
happens to range over it, and the patch replaces the stored list by them. So an event
that is handled again may write the same containers in another order. The profile of a
deployment is copied from the event, and is written as it was.
-/

namespace Kapprofiler.Controller

open Collector Foundation

/-- Undisturbed, the handler of the event writes what it has planned. -/
def Writes (storeNamespace : String) (cluster : Cluster) (event : ProfileEvent)
    (before : ProfileStore) (plan : Plan) (after : ProfileStore) : Prop :=
  ∃ (requests : List Answers) (state : HandlerState),
    (handlingMachine storeNamespace cluster event).run ⟨handleApplicationProfile event, before⟩
      (requests.map .request) = some ⟨state, before⟩ ∧
    (state = .create plan ∧
        before.create (plan.key storeNamespace) (plan.newProfile storeNamespace) = some after ∨
      state = .patch plan ∧
        before.patch (plan.key storeNamespace) plan.mergePatch = some after)

/-- If the event is handled again and meanwhile nobody has written the profiles of the pods
or that of the workload, the second write has the containers of the first, and nothing
changes. -/
def RehandlingStable (storeNamespace : String) (cluster : Cluster) (event : ProfileEvent)
    (profiles : ProfileStore) : Prop :=
  ∀ (first second : Plan) (written between after : ProfileStore),
    Writes storeNamespace cluster event profiles first written →
    (∀ name nameSpace, between.get (profileKey storeNamespace "pod" name nameSpace) =
      profiles.get (profileKey storeNamespace "pod" name nameSpace)) →
    between.get (first.key storeNamespace) = written.get (first.key storeNamespace) →
    Writes storeNamespace cluster event between second after →
    second.containers = first.containers ∧ after = between

/-- The containers in the profiles have one name. -/
def OneName (profiles : List ApplicationProfile) : Prop :=
  ∀ a ∈ profiles.flatMap fun profile => profile.spec.containers,
    ∀ b ∈ profiles.flatMap fun profile => profile.spec.containers, a.name = b.name

/-- The profile of the pod's workload is final. -/
def PodWorkload.Finished (storeNamespace : String) (profiles : ProfileStore)
    (found : PodWorkload) : Prop :=
  ∃ object, profiles.get (profileKey storeNamespace found.kind.name found.workload.name
    found.pod.nameSpace) = some object ∧ object.value.isFinal

variable {storeNamespace : String} {cluster : Cluster} {event : ProfileEvent}
  {before after profiles : ProfileStore} {plan : Plan}

/-! ## What is planned -/

theorem Planned.labels {read : Pod → ApplicationProfile → Prop}
    (hplanned : Planned storeNamespace cluster event read plan) :
    plan.labels = event.profile.labels := by
  cases hplanned <;> rfl

theorem StoredFor.unique {item : Pod} {first second : ApplicationProfile}
    (hfirst : StoredFor storeNamespace profiles item first)
    (hsecond : StoredFor storeNamespace profiles item second) : first = second := by
  obtain ⟨version, hget⟩ := hfirst
  obtain ⟨other, hother⟩ := hsecond
  rw [hget] at hother
  exact (Versioned.mk.inj (Option.some.inj hother)).1

theorem storedFor_unique {pods : List Pod} {first second : List ApplicationProfile}
    (hfirst : List.Forall₂ (StoredFor storeNamespace profiles) pods first)
    (hsecond : List.Forall₂ (StoredFor storeNamespace profiles) pods second) :
    first = second := by
  induction hfirst generalizing second with
  | nil =>
      cases hsecond
      rfl
  | cons hhead _ ih =>
      cases hsecond with
      | cons hother hrest => rw [hhead.unique hother, ih hrest]

/-- The plan is made of the profiles that are stored for the pods. -/
theorem Writes.planned (hwrites : Writes storeNamespace cluster event before plan after) :
    event.profile.labels.get partialLabel ≠ "true" ∧
      Planned storeNamespace cluster event (StoredFor storeNamespace before) plan := by
  obtain ⟨requests, state, hrun, hstate⟩ := hwrites
  have hplan : state = .create plan ∨ state = .patch plan := by
    rcases hstate with ⟨h, _⟩ | ⟨h, _⟩
    · exact Or.inl h
    · exact Or.inr h
  refine ⟨(planned_of_reachable ⟨_, _, by rfl, hrun⟩ hplan).1, ?_⟩
  have hjustified := justified_of_run rfl hrun
  have hplanned : Planned storeNamespace cluster event
      (Seen storeNamespace cluster event ⟨handleApplicationProfile event, before⟩
        (requests.map .request)) plan := by
    rcases hplan with h | h <;> rw [h] at hjustified <;> exact hjustified
  refine hplanned.mono fun item profile hseen => hseen.of_requests hrun ?_
  rcases hplan with h | h <;> rw [h] <;> exact HandlerState.noConfusion

/-! ## What is written -/

theorem Labels.union_self (labels : Labels) : labels ∪ labels = labels := by
  apply Finmap.ext_lookup
  intro label
  by_cases hmem : label ∈ labels
  · exact Finmap.lookup_union_left hmem
  · exact Finmap.lookup_union_right hmem

/-- A profile that was written has the containers and the labels of the plan. -/
theorem Writes.stored (hwrites : Writes storeNamespace cluster event before plan after) :
    ∃ object, after.get (plan.key storeNamespace) = some object ∧
      object.value.spec = ⟨plan.containers⟩ ∧
      plan.labels ∪ object.value.labels = object.value.labels := by
  obtain ⟨_, _, _, ⟨_, hcreate⟩ | ⟨_, hpatch⟩⟩ := hwrites
  · obtain ⟨_, rfl⟩ := VersionedStore.create_eq_some.mp hcreate
    exact ⟨_, before.put_get _ _, rfl, Labels.union_self plan.labels⟩
  · obtain ⟨object, hobject, rfl⟩ := VersionedStore.patch_eq_some.mp hpatch
    obtain ⟨version, hget⟩ := before.write_get (plan.mergePatch object.value) hobject
    refine ⟨_, hget, rfl, ?_⟩
    change plan.labels ∪ (plan.labels ∪ object.value.labels) = _
    rw [← Finmap.union_assoc, Labels.union_self]
    rfl

/-- A write leaves the profiles of the pods alone. -/
theorem Writes.get_pod (hwrites : Writes storeNamespace cluster event before plan after)
    (name nameSpace : String) :
    after.get (profileKey storeNamespace "pod" name nameSpace) =
      before.get (profileKey storeNamespace "pod" name nameSpace) := by
  have hne : profileKey storeNamespace "pod" name nameSpace ≠ plan.key storeNamespace := by
    intro heq
    have hkind := kind_eq_of_profileKey_eq (by decide) plan.kind.hyphen_notMem heq
    cases hplan : plan.kind <;> rw [hplan] at hkind <;> revert hkind <;> decide
  obtain ⟨_, _, _, ⟨_, hcreate⟩ | ⟨_, hpatch⟩⟩ := hwrites
  · obtain ⟨_, rfl⟩ := VersionedStore.create_eq_some.mp hcreate
    exact before.put_get_of_ne _ hne
  · obtain ⟨object, _, rfl⟩ := VersionedStore.patch_eq_some.mp hpatch
    exact before.write_get_of_ne object _ hne

/-- A handler that is about to patch has read a profile that is not final. -/
theorem not_final_of_requests {start last : Handling} {requests : List Answers}
    (hstart : ∀ plan, start.state ≠ .patch plan)
    (hrun : (handlingMachine storeNamespace cluster event).run start
      (requests.map .request) = some last) (hlast : last.state = .patch plan) :
    ∃ object, last.profiles.get (plan.key storeNamespace) = some object ∧
      ¬ object.value.isFinal := by
  have hpreserve : ∀ (handling : Handling) (label : HandlingLabel) (next : Handling),
      (∀ plan, handling.state = .patch plan →
        ∃ object, handling.profiles.get (plan.key storeNamespace) = some object ∧
          ¬ object.value.isFinal) →
      (∃ answers, label = .request answers) →
      (handlingMachine storeNamespace cluster event).step handling label = some next →
      ∀ plan, next.state = .patch plan →
        ∃ object, next.profiles.get (plan.key storeNamespace) = some object ∧
          ¬ object.value.isFinal := by
    rintro handling _ next _ ⟨answers, rfl⟩ hstep plan hplan
    obtain ⟨⟨state, profiles⟩, hhandler, rfl⟩ := Option.map_eq_some_iff.mp hstep
    rcases handlerStep_cases hhandler with ⟨hsame, hread⟩ | ⟨_, _, hidle, _⟩ | ⟨_, _, hidle, _⟩
    · obtain ⟨object, hobject, hfinal⟩ := hread plan hplan
      exact ⟨object, hsame ▸ hobject, hfinal⟩
    · cases hidle.symm.trans hplan
    · cases hidle.symm.trans hplan
  refine Machine.run_invariant_along _ hpreserve (fun plan hplan => absurd hplan (hstart plan)) ?_
    hrun plan hlast
  refine Machine.along_of_forall_mem _ fun _ label hlabel => ?_
  obtain ⟨answers, _, rfl⟩ := List.mem_map.mp hlabel
  exact ⟨answers, rfl⟩

/-- A profile that exists is patched, and is not final. -/
theorem Writes.patched (hwrites : Writes storeNamespace cluster event before plan after)
    {object : Versioned ApplicationProfile}
    (hobject : before.get (plan.key storeNamespace) = some object) :
    ¬ object.value.isFinal ∧
      after = before.write (plan.key storeNamespace) object (plan.mergePatch object.value) := by
  obtain ⟨requests, state, hrun, ⟨_, hcreate⟩ | ⟨rfl, hpatch⟩⟩ := hwrites
  · have habsent := (VersionedStore.create_eq_some.mp hcreate).1
    rw [hobject] at habsent
    cases habsent
  · obtain ⟨other, hother, hfinal⟩ :=
      not_final_of_requests (handleApplicationProfile_ne_patch event) hrun rfl
    obtain ⟨stored, hstored, hafter⟩ := VersionedStore.patch_eq_some.mp hpatch
    obtain rfl := Option.some.inj (hobject.symm.trans hother)
    obtain rfl := Option.some.inj (hobject.symm.trans hstored)
    exact ⟨hfinal, hafter⟩

/-! ## Orders of the map -/

/-- With one name there is only one order. -/
theorem Merged.eq_of_oneName {profiles : List ApplicationProfile}
    {first second : List ContainerProfile} (hfirst : Merged profiles first)
    (hsecond : Merged profiles second) (hname : OneName profiles) : second = first := by
  have hperm : second.Perm first := List.Perm.trans hsecond (List.Perm.symm hfirst)
  match first, hfirst, hperm with
  | [], _, hperm => exact hperm.eq_nil
  | [_], _, hperm => exact List.perm_singleton.mp hperm
  | a :: b :: rest, hfirst, _ =>
      -- two containers of the map have different names, which both occur
      obtain ⟨firstA, restA, hA, _⟩ := hfirst.entries_of_mem List.mem_cons_self
      obtain ⟨firstB, restB, hB, _⟩ :=
        hfirst.entries_of_mem (List.mem_cons_of_mem a List.mem_cons_self)
      have hmemA := List.mem_filter.mp (hA ▸ List.mem_cons_self : firstA ∈ occurrences a.name _)
      have hmemB := List.mem_filter.mp (hB ▸ List.mem_cons_self : firstB ∈ occurrences b.name _)
      have hsame : a.name = b.name := by
        rw [← of_decide_eq_true hmemA.2, ← of_decide_eq_true hmemB.2]
        exact hname firstA hmemA.1 firstB hmemB.1
      have hnodup := hfirst.nodup_names
      rw [List.map_cons, List.map_cons, hsame] at hnodup
      exact absurd List.mem_cons_self (List.nodup_cons.mp hnodup).1

/-- An order that begins with the second container. -/
def swapFirst : List ContainerProfile → List ContainerProfile
  | a :: b :: rest => b :: a :: rest
  | containers => containers

theorem swapFirst_perm (containers : List ContainerProfile) :
    (swapFirst containers).Perm containers := by
  unfold swapFirst
  split
  · exact List.Perm.swap _ _ _
  · exact List.Perm.refl _

/-- Two names give the map another order. -/
theorem swapFirst_ne {profiles : List ApplicationProfile} (hname : ¬ OneName profiles) :
    swapFirst (profiles.foldl addPod []) ≠ profiles.foldl addPod [] := by
  intro hsame
  apply hname
  have hmerged : Merged profiles (profiles.foldl addPod []) := List.Perm.refl _
  intro a ha b hb
  obtain ⟨mapA, hmapA, hA⟩ := hmerged.exists_mem
    (List.mem_filter.mpr ⟨ha, decide_eq_true rfl⟩ : a ∈ occurrences a.name profiles)
  obtain ⟨mapB, hmapB, hB⟩ := hmerged.exists_mem
    (List.mem_filter.mpr ⟨hb, decide_eq_true rfl⟩ : b ∈ occurrences b.name profiles)
  have hnodup := hmerged.nodup_names
  rw [← hA, ← hB]
  cases hmap : profiles.foldl addPod [] with
  | nil => exact absurd (hmap ▸ hmapA) List.not_mem_nil
  | cons first rest =>
      rw [hmap] at hsame hmapA hmapB hnodup
      cases rest with
      | nil => rw [List.mem_singleton.mp hmapA, List.mem_singleton.mp hmapB]
      | cons second rest =>
          obtain ⟨rfl, _⟩ := List.cons.inj hsame
          rw [List.map_cons, List.map_cons] at hnodup
          exact absurd List.mem_cons_self (List.nodup_cons.mp hnodup).1

/-! ## Handling twice -/

/-- The handler comes to the profile of the workload with the containers in any order. -/
theorem run_workload_in_order {found : PodWorkload}
    (hfound : found.Found storeNamespace cluster event)
    (hwhole : event.profile.labels.get partialLabel ≠ "true")
    {stored : List ApplicationProfile}
    (hstored : List.Forall₂ (StoredFor storeNamespace before) found.pods stored)
    {order : List ContainerProfile → List ContainerProfile}
    (hperm : (order (stored.foldl addPod [])).Perm (stored.foldl addPod [])) :
    ∃ requests : List Answers,
      (handlingMachine storeNamespace cluster event).run ⟨handleApplicationProfile event, before⟩
        (requests.map .request) =
          some ⟨.get (found.plan event (order (stored.foldl addPod []))), before⟩ := by
  refine ⟨List.replicate 3 ({} : Answers) ++
    (List.replicate found.pods.length ({} : Answers) ++ [{ order := order }]), ?_⟩
  rw [List.map_append, List.map_replicate, Machine.run_append]
  refine ⟨_, run_listPods hfound hwhole, ?_⟩
  rw [List.map_append, List.map_replicate, Machine.run_append]
  refine ⟨_, run_getPodProfiles hstored [], ?_⟩
  simp [Machine.run, handlingMachine, handlingStep, handlerStep, PodWorkload.plan, hperm]

/-- There it writes them, unless that profile is final. -/
theorem exists_writes {found : PodWorkload} (hfound : found.Found storeNamespace cluster event)
    (hwhole : event.profile.labels.get partialLabel ≠ "true")
    {stored : List ApplicationProfile}
    (hstored : List.Forall₂ (StoredFor storeNamespace before) found.pods stored)
    (hfinished : ¬ found.Finished storeNamespace before)
    {order : List ContainerProfile → List ContainerProfile}
    (hperm : (order (stored.foldl addPod [])).Perm (stored.foldl addPod [])) :
    ∃ after, Writes storeNamespace cluster event before
      (found.plan event (order (stored.foldl addPod []))) after := by
  obtain ⟨requests, hrun⟩ := run_workload_in_order hfound hwhole hstored hperm
  generalize hplan : found.plan event (order (stored.foldl addPod [])) = plan at hrun ⊢
  have hfinal : ∀ object, before.get (plan.key storeNamespace) = some object →
      ¬ object.value.isFinal := by
    subst hplan
    exact fun object hobject hfinal => hfinished ⟨object, hobject, hfinal⟩
  -- The run up to the get of the plan, extended by what the get answers.
  have hget : ∀ state, handlerStep storeNamespace { cluster := cluster } before (.get plan) =
      some (state, before) →
      (handlingMachine storeNamespace cluster event).run ⟨handleApplicationProfile event, before⟩
        ((requests ++ [({} : Answers)]).map .request) = some ⟨state, before⟩ := by
    intro state hstep
    rw [List.map_append, Machine.run_append]
    refine ⟨_, hrun, ?_⟩
    simp [Machine.run, handlingMachine, handlingStep, hstep]
  cases hobject : before.get (plan.key storeNamespace) with
  | none =>
      have hstep : handlerStep storeNamespace { cluster := cluster } before (.get plan) =
          some (.create plan, before) := by
        simp [handlerStep, hobject, request]
      exact ⟨_, _, _, hget _ hstep, Or.inl ⟨rfl, VersionedStore.create_of_absent _ hobject⟩⟩
  | some object =>
      have hstep : handlerStep storeNamespace { cluster := cluster } before (.get plan) =
          some (.patch plan, before) := by
        simp [handlerStep, hobject, request, hfinal object hobject]
      exact ⟨_, _, _, hget _ hstep, Or.inr ⟨rfl, VersionedStore.patch_of_get _ hobject⟩⟩

/-- The first write leaves the profile of the workload final only if the event's is. -/
theorem Writes.not_finished {found : PodWorkload} {containers : List ContainerProfile}
    (hwrites : Writes storeNamespace cluster event before (found.plan event containers) after)
    (hfinal : ¬ event.profile.isFinal) : ¬ found.Finished storeNamespace after := by
  intro hfinished
  obtain ⟨object, hobject, hobjectFinal⟩ := hfinished
  change after.get ((found.plan event containers).key storeNamespace) = some object at hobject
  cases hbefore : before.get ((found.plan event containers).key storeNamespace) with
  | some existing =>
      obtain ⟨hexisting, rfl⟩ := hwrites.patched hbefore
      obtain ⟨version, hget⟩ := before.write_get
        ((found.plan event containers).mergePatch existing.value) hbefore
      obtain rfl := Option.some.inj (hobject.symm.trans hget)
      exact @Plan.not_final_mergePatch (found.plan event containers) _ hfinal hexisting
        hobjectFinal
  | none =>
      obtain ⟨_, _, _, ⟨_, hcreate⟩ | ⟨_, hpatch⟩⟩ := hwrites
      · obtain ⟨_, rfl⟩ := VersionedStore.create_eq_some.mp hcreate
        rw [VersionedStore.put_get] at hobject
        obtain rfl := Option.some.inj hobject
        exact hfinal hobjectFinal
      · obtain ⟨existing, hexisting, _⟩ := VersionedStore.patch_eq_some.mp hpatch
        rw [hbefore] at hexisting
        cases hexisting

/-- Containers of two names can be written in another order the second time. -/
theorem not_stable_of_two_names {found : PodWorkload}
    (hfound : found.Found storeNamespace cluster event)
    (hwhole : event.profile.labels.get partialLabel ≠ "true")
    (hfinal : ¬ event.profile.isFinal) {stored : List ApplicationProfile}
    (hstored : List.Forall₂ (StoredFor storeNamespace profiles) found.pods stored)
    (hfinished : ¬ found.Finished storeNamespace profiles) (hnames : ¬ OneName stored) :
    ¬ RehandlingStable storeNamespace cluster event profiles := by
  intro hstable
  obtain ⟨written, hfirst⟩ := @exists_writes _ _ _ _ _ hfound hwhole _ hstored hfinished id
    (List.Perm.refl _)
  have hkept : List.Forall₂ (StoredFor storeNamespace written) found.pods stored :=
    hstored.imp fun item profile ⟨version, hget⟩ =>
      ⟨version, (hfirst.get_pod item.name item.nameSpace).trans hget⟩
  obtain ⟨after, hsecond⟩ := exists_writes hfound hwhole hkept (hfirst.not_finished hfinal)
    (swapFirst_perm _)
  exact swapFirst_ne hnames
    (hstable _ _ written written after hfirst hfirst.get_pod rfl hsecond).1

/-- An event has one replica set, too. -/
theorem OwnedReplicaSet.Found.eq {first second : OwnedReplicaSet}
    (hfirst : first.Found storeNamespace cluster event)
    (hsecond : second.Found storeNamespace cluster event) : first = second := by
  obtain ⟨replicaSet, owner⟩ := first
  obtain ⟨otherReplicaSet, otherOwner⟩ := second
  obtain rfl : replicaSet = otherReplicaSet :=
    Option.some.inj (hfirst.replicaSet.symm.trans hsecond.replicaSet)
  obtain rfl : owner = otherOwner := Option.some.inj (hfirst.owner.symm.trans hsecond.owner)
  rfl

/-- What is planned for an event differs in the containers alone, and only if they come from
the profiles of pods. -/
inductive PlannedAgain (storeNamespace : String) (cluster : Cluster) (event : ProfileEvent)
    (first second : Plan) (read more : Pod → ApplicationProfile → Prop) : Prop
  | workload (found : PodWorkload) (firsts seconds : List ApplicationProfile)
      (hfound : found.Found storeNamespace cluster event)
      (hfirst : first = found.plan event first.containers)
      (hsecond : second = found.plan event second.containers)
      (hread : List.Forall₂ read found.pods firsts) (hmerged : Merged firsts first.containers)
      (hmore : List.Forall₂ more found.pods seconds)
      (hmergedAgain : Merged seconds second.containers)
  | deployment (hsame : second = first)

theorem Planned.again {first second : Plan} {read more : Pod → ApplicationProfile → Prop}
    (hfirst : Planned storeNamespace cluster event read first)
    (hsecond : Planned storeNamespace cluster event more second) :
    PlannedAgain storeNamespace cluster event first second read more := by
  cases hfirst with
  | workload found firsts containers hfound hread hmerged =>
      cases hsecond with
      | workload other seconds others hother hmore hmergedAgain =>
          obtain rfl := hfound.eq hother
          exact .workload found firsts seconds hfound rfl rfl hread hmerged hmore hmergedAgain
      | deployment other hother =>
          have hnone := hother.pod
          rw [hfound.pod] at hnone
          cases hnone
  | deployment found hfound =>
      cases hsecond with
      | workload other _ _ hother =>
          have hnone := hfound.pod
          rw [hother.pod] at hnone
          cases hnone
      | deployment other hother => exact .deployment (by rw [hfound.eq hother])

/-- The profile that was written is not written again if the event's is final. -/
theorem Writes.final_of_event (hwrites : Writes storeNamespace cluster event before plan after)
    (hfinal : event.profile.isFinal) {object : Versioned ApplicationProfile}
    (hobject : after.get (plan.key storeNamespace) = some object) : object.value.isFinal := by
  obtain ⟨stored, hstored, _, hlabels⟩ := hwrites.stored
  obtain rfl := Option.some.inj (hobject.symm.trans hstored)
  have hlabel : plan.labels.get finalLabel = "true" := hwrites.planned.2.labels ▸ hfinal
  have hmem : finalLabel ∈ plan.labels := by
    by_contra hmissing
    rw [Labels.get, Finmap.lookup_eq_none.mpr hmissing] at hlabel
    exact absurd hlabel (by decide)
  change object.value.labels.get finalLabel = "true"
  rw [← hlabels, Labels.get_union, if_pos hmem]
  exact hlabel

/-- Handling an event again is stable exactly if the profiles of the workload's pods have
containers of one name at most, or nothing is written the second time anyway. -/
theorem rehandlingStable_iff (storeNamespace : String) (cluster : Cluster)
    (event : ProfileEvent) (profiles : ProfileStore) :
    RehandlingStable storeNamespace cluster event profiles ↔
      event.profile.labels.get partialLabel = "true" ∨ event.profile.isFinal ∨
        ∀ found : PodWorkload, found.Found storeNamespace cluster event →
          found.Finished storeNamespace profiles ∨
            ∀ stored, List.Forall₂ (StoredFor storeNamespace profiles) found.pods stored →
              OneName stored := by
  constructor
  · intro hstable
    refine or_iff_not_imp_left.mpr fun hwhole => or_iff_not_imp_left.mpr fun hfinal => ?_
    intro found hfound
    refine or_iff_not_imp_left.mpr fun hfinished stored hstored => ?_
    by_contra hnames
    exact not_stable_of_two_names hfound hwhole hfinal hstored hfinished hnames hstable
  · intro hcondition first second written between after hfirst hkept hworkload hsecond
    obtain ⟨hwhole, hplanned⟩ := hfirst.planned
    have hreplanned := hsecond.planned.2
    obtain ⟨object, hobject, hspec, hlabels⟩ := hfirst.stored
    have hbetween := hworkload.trans hobject
    -- the same profile is written both times
    have hkey : second.key storeNamespace = first.key storeNamespace := by
      cases hplanned.again hreplanned with
      | workload found _ _ _ hfirstPlan hsecondPlan =>
          rw [hfirstPlan, hsecondPlan]
          rfl
      | deployment hsame => rw [hsame]
    obtain ⟨hobjectFinal, hafter⟩ := hsecond.patched (hkey ▸ hbetween)
    have hcontainers : second.containers = first.containers := by
      cases hplanned.again hreplanned with
      | deployment hsame => rw [hsame]
      | workload found stored _ hfound hfirstPlan _ hread hmerged hmore hmergedAgain =>
          have hkeptRead := hmore.imp fun item profile ⟨version, hget⟩ =>
            (⟨version, (hkept item.name item.nameSpace).symm.trans hget⟩ :
              StoredFor storeNamespace profiles item profile)
          obtain rfl := storedFor_unique hread hkeptRead
          rcases hcondition with hmarked | hfinal | hnames
          · exact absurd hmarked hwhole
          · exact absurd (hfirst.final_of_event hfinal hobject) hobjectFinal
          · rcases hnames found hfound with ⟨existing, hexisting, hfinal⟩ | hname
            · rw [hfirstPlan] at hfirst
              exact absurd hfinal (hfirst.patched hexisting).1
            · exact hmerged.eq_of_oneName hmergedAgain (hname _ hread)
    refine ⟨hcontainers, ?_⟩
    have hnoop : second.mergePatch object.value = object.value := by
      have hsame : second.labels = first.labels :=
        hreplanned.labels.trans hplanned.labels.symm
      unfold Plan.mergePatch
      rw [hsame, hlabels, hcontainers, ← hspec]
    rw [hafter, hnoop, VersionedStore.write_value]

/-- A pod of two containers. -/
def sidecarProfile : ApplicationProfile where
  name := "pod-agent-x1"
  labels := ∅
  spec := ⟨[{ name := "app", sysCalls := ["read"] }, { name := "proxy", sysCalls := ["send"] }]⟩

def sidecarStore : ProfileStore :=
  VersionedStore.empty.put ("default", "pod-agent-x1") sidecarProfile

/-- The second time, the proxy may come before the app. -/
theorem sidecar_rewritten :
    ¬ ∀ (storeNamespace : String) (cluster : Cluster) (event : ProfileEvent)
      (profiles : ProfileStore), RehandlingStable storeNamespace cluster event profiles := by
  intro hclaim
  have hagent : (agentWorkload ((∅ : Labels).insert "app" "agent") [agentPod]).Found ""
      (agentCluster ((∅ : Labels).insert "app" "agent")) agentEvent :=
    ⟨rfl, rfl, rfl, rfl, rfl⟩
  have hstored : List.Forall₂ (StoredFor "" sidecarStore) [agentPod] [sidecarProfile] :=
    .cons ⟨1, rfl⟩ .nil
  have hnames : ¬ OneName [sidecarProfile] := by
    intro hname
    exact absurd (hname _ List.mem_cons_self _ (List.mem_cons_of_mem _ List.mem_cons_self))
      (by decide)
  have hfinished : ¬ (agentWorkload ((∅ : Labels).insert "app" "agent") [agentPod]).Finished ""
      sidecarStore := by
    rintro ⟨object, hobject, _⟩
    cases hobject
  exact not_stable_of_two_names hagent (by decide) (by decide) hstored hfinished hnames
    (hclaim "" _ agentEvent sidecarStore)

end Kapprofiler.Controller
