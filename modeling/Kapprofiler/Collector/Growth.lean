import Kapprofiler.Collector.Copies
import Kapprofiler.Collector.MergeFrame
import Kapprofiler.Foundation.StoreWrites

/-! # Stored profiles only grow

Passes of any containers, finalizations and failing requests meet at the profile of a pod.
An update presents the version of the copy that it was merged from, so it never replaces
what another pass has stored in between: whatever a profile holds, it holds until it is
deleted.
-/

namespace Kapprofiler.Collector

open Foundation

variable {config : CollectorManagerConfig}

/-- The later profile has the containers of the earlier one in their places, each of them
with everything that it had. -/
def ApplicationProfile.Grows (earlier later : ApplicationProfile) : Prop :=
  Continues ContainerProfile.Grows earlier.spec.containers later.spec.containers

namespace ApplicationProfile.Grows

theorem refl (profile : ApplicationProfile) : profile.Grows profile :=
  continues_refl ContainerProfile.Grows.refl _

theorem trans {first second third : ApplicationProfile} (hfirst : first.Grows second)
    (hsecond : second.Grows third) : first.Grows third :=
  Continues.trans (fun _ _ _ hgrown hlater => hgrown.trans hlater) hfirst hsecond

/-- A mark changes labels only. -/
theorem mark (label : String) (profile : ApplicationProfile) :
    profile.Grows (profile.mark label) :=
  refl profile

theorem mergedProfile (mounts : List String) (state : ContainerState)
    (existing : ApplicationProfile) (new : ContainerProfile) :
    existing.Grows (mergedProfile config mounts state existing new) := by
  unfold ApplicationProfile.Grows
  rw [mergedProfile_containers]
  exact (mergeFrame_mergeContainers new existing.spec.containers).grown

end ApplicationProfile.Grows

/-! ## One step -/

variable {key : String × String}

/-- What was stored under the key still is, and has only grown. -/
abbrev ProfileGrows (key : String × String) (store next : ProfileStore) : Prop :=
  VersionedStore.GrowsAt ApplicationProfile.Grows key store next

theorem profileGrows_of_eq {store next : ProfileStore} (hsame : next = store) :
    ProfileGrows key store next := by
  rw [hsame]
  exact VersionedStore.growsAt_refl ApplicationProfile.Grows.refl store

theorem collectStep_grows {system : System} {id : ContainerId} {state : PassState}
    (hcopies : CopiesFaithful config system)
    (hcall : Call.collectContainerEvents id state ∈ system.calls) (answers : Answers) :
    ProfileGrows key system.world.profiles
      (collectStep config id answers system.world state).2.profiles := by
  rcases collectStep_profiles config id answers system.world state with
    hsame | ⟨_, _, _, hcreate⟩ | ⟨_, hpatch⟩ | ⟨found, containerProfile, existing, rfl, hupdate⟩
  · exact profileGrows_of_eq hsame
  · exact VersionedStore.growsAt_create ApplicationProfile.Grows.refl hcreate
  · apply VersionedStore.growsAt_patch ApplicationProfile.Grows.refl _ hpatch
    exact ApplicationProfile.Grows.mark failedLabel
  · have hfaithful := (hcopies id _ existing hcall rfl).1
    apply VersionedStore.growsAt_update ApplicationProfile.Grows.refl hfaithful _ hupdate
    exact ApplicationProfile.Grows.mergedProfile _ found existing.value containerProfile

theorem finalizeProfile_grows (answers : Answers) (world : World) (nameSpace podName : String) :
    ProfileGrows key world.profiles
      (finalizeProfile config answers world nameSpace podName).profiles := by
  unfold finalizeProfile
  split
  next hpatch =>
    apply VersionedStore.growsAt_patch ApplicationProfile.Grows.refl _ (of_request hpatch)
    exact ApplicationProfile.Grows.mark finalLabel
  next => exact profileGrows_of_eq rfl

/-- Only the deletion of the object itself takes anything out of it. -/
theorem Call.step_grows {system : System} {call next : Call} {answers : Answers} {after : World}
    (hcopies : CopiesFaithful config system) (hcall : call ∈ system.calls)
    (hkeeps : call.deletes config answers ≠ some key)
    (hstep : call.step config answers system.world = some (next, after)) :
    ProfileGrows key system.world.profiles after.profiles := by
  rcases Call.step_cases hstep with
    ⟨id, attach, state, started, rfl, hstarted, rfl, rfl⟩ | ⟨id, state, rfl, _, rfl, rfl⟩ |
    ⟨nameSpace, podName, rfl, rfl, rfl⟩ | ⟨nameSpace, podName, rfl, rfl, rfl⟩
  · rcases startStep_cases hstarted with ⟨_, _, _, _, _, hsame⟩ | ⟨_, _, _, hsame⟩
    · exact profileGrows_of_eq hsame
    · exact profileGrows_of_eq hsame
  · exact collectStep_grows hcopies hcall answers
  · exact finalizeProfile_grows answers system.world nameSpace podName
  · rcases deleteProfile_profiles answers system.world nameSpace podName with
      hsame | ⟨deleted, hdeletes, hdeleted⟩
    · exact profileGrows_of_eq hsame
    · have hne : key ≠ deleted := fun heq => hkeeps (heq ▸ hdeletes)
      apply VersionedStore.growsAt_of_get_eq ApplicationProfile.Grows.refl
      rw [hdeleted, VersionedStore.delete_get_of_ne _ hne]

theorem LabelChange.profiles {world next : World} {label : Label} {launched : List Call}
    (hchange : LabelChange config world label next launched) : next.profiles = world.profiles := by
  cases hchange with
  | stopped id => exact (containerStopped_untracks world id).2.2.1
  | _ => rfl

theorem step_grows {system next : System} {label : Label} (hcopies : CopiesFaithful config system)
    (hkeeps : KeepsObject config key system label)
    (hstep : step config system label = some next) :
    ProfileGrows key system.world.profiles next.world.profiles := by
  rcases step_cases hstep with
    ⟨call, answers, current, after, rfl, hcurrent, hcall, _⟩ | ⟨launched, hchange, _⟩
  · exact Call.step_grows hcopies (List.mem_of_getElem? hcurrent) (hkeeps current hcurrent) hcall
  · exact profileGrows_of_eq hchange.profiles

/-! ## Whole runs -/

/-- However passes, finalizations and failures interleave, and until the profile is deleted:
the containers stored in it keep their places and their names, the lists of each are only
continued, its capability entries only gain capabilities, and the object's version does not
go back. No pass undoes what another one has stored. -/
theorem stored_profile_grows {system last : System} {labels : List Label}
    {object : Versioned ApplicationProfile} (hreach : (machine config).Reachable system)
    (hobject : system.world.profiles.get key = some object)
    (hkeeps : (machine config).Along (KeepsObject config key) system labels)
    (hrun : (machine config).run system labels = some last) :
    ∃ grown, last.world.profiles.get key = some grown ∧ object.version ≤ grown.version ∧
      object.value.Grows grown.value := by
  have hpreserve : ∀ before label after,
      CopiesFaithful config before ∧ ProfileGrows key system.world.profiles before.world.profiles →
      KeepsObject config key before label → step config before label = some after →
      CopiesFaithful config after ∧
        ProfileGrows key system.world.profiles after.world.profiles := by
    rintro before label after ⟨hcopies, hgrown⟩ hmeets hstep
    refine ⟨step_copiesFaithful hcopies hstep, ?_⟩
    exact hgrown.trans (fun _ _ _ hfirst hsecond => hfirst.trans hsecond)
      (step_grows hcopies hmeets hstep)
  have hstart : CopiesFaithful config system ∧
      ProfileGrows key system.world.profiles system.world.profiles :=
    ⟨reachable_copiesFaithful hreach, profileGrows_of_eq rfl⟩
  exact ((machine config).run_invariant_along hpreserve hstart hkeeps hrun).2 object hobject

/-- One pass stores a syscall, and a later one another. -/
def storedRun : List Label :=
  .containerStarted nginx true :: List.replicate 6 (.advance 0 {}) ++
    .timerExpired nginx :: List.replicate 11 (.advance 1 { peek := .ok ["read"] })

def extendingRun : List Label :=
  .timerExpired nginx :: List.replicate 11 (.advance 2 { peek := .ok ["write"] })

theorem nginx_profile_grows : ∃ system last object grown,
    (machine mainConfig).run freshSystem storedRun = some system ∧
      system.world.profiles.get (nginx.profileKey mainConfig) = some object ∧
      (machine mainConfig).run system extendingRun = some last ∧
      last.world.profiles.get (nginx.profileKey mainConfig) = some grown ∧
      grown.value.spec.containers.map (·.sysCalls) = [["read", "write"]] ∧
      object.value.Grows grown.value := by
  obtain ⟨system, object, last, hbefore, hobject, hkeeps, hrun, hsyscalls⟩ :
      ∃ system object last, (machine mainConfig).run freshSystem storedRun = some system ∧
        system.world.profiles.get (nginx.profileKey mainConfig) = some object ∧
        (machine mainConfig).Along (KeepsObject mainConfig (nginx.profileKey mainConfig))
          system extendingRun ∧
        (machine mainConfig).run system extendingRun = some last ∧
        ∀ grown ∈ last.world.profiles.get (nginx.profileKey mainConfig),
          grown.value.spec.containers.map (·.sysCalls) = [["read", "write"]] :=
    ⟨_, _, _, rfl, rfl, by decide, rfl, by decide⟩
  obtain ⟨grown, hgrown, _, hgrows⟩ := stored_profile_grows
    ⟨freshSystem, storedRun, initial_freshSystem, hbefore⟩ hobject hkeeps hrun
  exact ⟨system, last, object, grown, hbefore, hobject, hrun, hgrown, hsyscalls grown hgrown,
    hgrows⟩

end Kapprofiler.Collector
