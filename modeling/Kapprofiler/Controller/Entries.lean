import Kapprofiler.Collector.Entries
import Kapprofiler.Controller.Immutability

/-! # What a controller writes about a container

The handler merges the profiles that it has read, and writes nothing about a container that
none of them said. What it holds between two requests is known from them, too.
-/

namespace Kapprofiler.Controller

open Collector Foundation

/-! ## Merging -/

theorem mem_of_mem_mergeEntries {Item : Type} {equals : Item → Item → Bool}
    {existing new : List Item} {item : Item} (hitem : item ∈ mergeEntries equals existing new) :
    item ∈ existing ∨ item ∈ new := by
  rcases mem_foldl_appendWhen hitem with hold | ⟨other, hother, rfl⟩
  · exact Or.inl hold
  · exact Or.inr hother

theorem has_mergeContainer {mapContainer container : ContainerProfile} {entry : Entry}
    (hentry : (mergeContainer mapContainer container).Has entry) :
    mapContainer.Has entry ∨ container.Has entry := by
  cases entry with
  | capability syscall capability =>
      obtain ⟨call, hcall, hlists⟩ := hentry
      rcases mem_of_mem_mergeEntries hcall with hold | hnew
      · exact Or.inl ⟨call, hold, hlists⟩
      · exact Or.inr ⟨call, hnew, hlists⟩
  | _ => exact mem_of_mem_mergeEntries hentry

theorem hasEntry_addContainer {containersMap : List ContainerProfile}
    {container : ContainerProfile} {name : String} {entry : Entry}
    (hentry : Collector.HasEntry (addContainer containersMap container) name entry) :
    Collector.HasEntry containersMap name entry ∨ container.name = name ∧ container.Has entry := by
  induction containersMap with
  | nil =>
      obtain ⟨profile, hprofile, hname, hhas⟩ := hentry
      rw [List.mem_singleton.mp hprofile] at hname hhas
      exact Or.inr ⟨hname, hhas⟩
  | cons mapContainer rest ih =>
      obtain ⟨profile, hprofile, hname, hhas⟩ := hentry
      unfold addContainer at hprofile
      split at hprofile
      next hsame =>
        rcases List.mem_cons.mp hprofile with rfl | hrest
        · rcases has_mergeContainer hhas with hold | hnew
          · exact Or.inl ⟨mapContainer, List.mem_cons_self, hname, hold⟩
          · exact Or.inr ⟨hsame.symm.trans hname, hnew⟩
        · exact Or.inl ⟨profile, List.mem_cons_of_mem _ hrest, hname, hhas⟩
      next =>
        rcases List.mem_cons.mp hprofile with rfl | hrest
        · exact Or.inl ⟨profile, List.mem_cons_self, hname, hhas⟩
        · refine (ih ⟨profile, hrest, hname, hhas⟩).imp_left ?_
          rintro ⟨other, hother, hkept⟩
          exact ⟨other, List.mem_cons_of_mem _ hother, hkept⟩

/-- Merging a pod's profile brings only what the profile states. -/
theorem hasEntry_addPod {containersMap : List ContainerProfile} {profile : ApplicationProfile}
    {name : String} {entry : Entry}
    (hentry : Collector.HasEntry (addPod containersMap profile) name entry) :
    Collector.HasEntry containersMap name entry ∨ profile.Has name entry := by
  have hfold : ∀ (containers containersMap : List ContainerProfile),
      Collector.HasEntry (containers.foldl addContainer containersMap) name entry →
      Collector.HasEntry containersMap name entry ∨ Collector.HasEntry containers name entry := by
    intro containers
    induction containers with
    | nil => exact fun containersMap hhas => Or.inl hhas
    | cons container rest ih =>
        intro containersMap hhas
        rcases ih _ hhas with hadded | ⟨other, hother, hkept⟩
        · rcases hasEntry_addContainer hadded with hold | hnew
          · exact Or.inl hold
          · exact Or.inr ⟨container, List.mem_cons_self, hnew⟩
        · exact Or.inr ⟨other, List.mem_cons_of_mem _ hother, hkept⟩
  exact hfold profile.spec.containers containersMap hentry

/-! ## What a handler holds -/

variable {known : String → Entry → Prop}

/-- Everything that the containers state is known. -/
def Known (known : String → Entry → Prop) (containers : List ContainerProfile) : Prop :=
  ∀ container entry, Collector.HasEntry containers container entry → known container entry

/-- What a handler holds of the event's profile, of the merged pods, or of its plan. -/
def HandlerState.Grounded (known : String → Entry → Prop) : HandlerState → Prop
  | .idle => True
  | .getPod event | .getReplicaSet event | .getWorkload event _ _ _ | .listPods event _ _ _ =>
      Known known event.profile.spec.containers
  | .getPodProfiles _ _ _ _ _ containersMap => Known known containersMap
  | .get plan | .create plan | .patch plan => Known known plan.containers

theorem Known.mono {more : String → Entry → Prop} {containers : List ContainerProfile}
    (hknown : Known known containers)
    (hmore : ∀ container entry, known container entry → more container entry) :
    Known more containers :=
  fun container entry hentry => hmore container entry (hknown container entry hentry)

theorem HandlerState.Grounded.mono {more : String → Entry → Prop} {state : HandlerState}
    (hground : state.Grounded known)
    (hmore : ∀ container entry, known container entry → more container entry) :
    state.Grounded more := by
  cases state with
  | idle => trivial
  | _ => exact Known.mono hground hmore

theorem grounded_handleApplicationProfile {event : ProfileEvent}
    (hevent : Known known event.profile.spec.containers) :
    (handleApplicationProfile event).Grounded known := by
  unfold handleApplicationProfile
  split
  · trivial
  · exact hevent

theorem known_nil : Known known [] := by
  rintro container entry ⟨profile, hprofile, _⟩
  cases hprofile

section Request

variable {storeNamespace : String} {answers : Answers} {profiles after : ProfileStore}
  {state next : HandlerState}

/-- A request of a handler reads what is known, and keeps it. -/
theorem HandlerState.Grounded.step (hground : state.Grounded known)
    (hprofiles : profiles.Everywhere fun _ profile => Known known profile.spec.containers)
    (hstep : handlerStep storeNamespace answers profiles state = some (next, after)) :
    next.Grounded known := by
  cases state with
  | idle => cases hstep
  | getPod event =>
      simp only [handlerStep] at hstep
      repeat' split at hstep
      all_goals
        cases hstep
        trivial
  | getReplicaSet event =>
      simp only [handlerStep] at hstep
      repeat' split at hstep
      all_goals
        cases hstep
        trivial
  | getWorkload event pod kind owner =>
      simp only [handlerStep] at hstep
      split at hstep <;> cases hstep
      · trivial
      · exact hground
  | listPods event pod kind workload =>
      simp only [handlerStep] at hstep
      split at hstep <;> cases hstep
      · trivial
      · exact known_nil
  | getPodProfiles event pod kind name pods containersMap =>
      cases pods with
      | nil =>
          simp only [handlerStep] at hstep
          split at hstep
          next horder =>
            cases hstep
            rintro container entry ⟨profile, hprofile, hentry⟩
            exact hground container entry ⟨profile, horder.mem_iff.mp hprofile, hentry⟩
          next => cases hstep
      | cons item pods =>
          simp only [handlerStep] at hstep
          split at hstep
          · cases hstep
            trivial
          next typedObj hget =>
            cases hstep
            intro container entry hentry
            -- An entry was merged before, or is one of the profile just read.
            rcases hasEntry_addPod hentry with hold | hread
            · exact hground container entry hold
            · exact hprofiles _ typedObj (of_request hget) container entry hread
  | get plan =>
      simp only [handlerStep] at hstep
      split at hstep
      · cases hstep
        exact hground
      · split at hstep <;> cases hstep
        · trivial
        · exact hground
  | create plan =>
      simp only [handlerStep] at hstep
      split at hstep <;> cases hstep <;> trivial
  | patch plan =>
      simp only [handlerStep] at hstep
      split at hstep <;> cases hstep <;> trivial

/-- What a request of a handler writes is known, and is the profile of a workload. -/
theorem HandlerState.Grounded.writes {good : String × String → ApplicationProfile → Prop}
    (hground : state.Grounded known) (hprofiles : profiles.Everywhere good)
    (hgood : ∀ key profile, IsWorkloadKey key → Known known profile.spec.containers →
      good key profile)
    (hstep : handlerStep storeNamespace answers profiles state = some (next, after)) :
    after.Everywhere good := by
  rcases handlerStep_cases hstep with
    ⟨rfl, _⟩ | ⟨plan, rfl, _, hcreate⟩ | ⟨plan, rfl, _, hpatch⟩
  · exact hprofiles
  · have hplan : Known known (plan.newProfile storeNamespace).spec.containers := hground
    exact hprofiles.create (hgood _ _ plan.isWorkloadKey hplan) hcreate
  · have hplan : ∀ profile, Known known (plan.mergePatch profile).spec.containers :=
      fun _ => hground
    exact hprofiles.patch (fun profile _ => hgood _ _ plan.isWorkloadKey (hplan profile)) hpatch

end Request

end Kapprofiler.Controller
