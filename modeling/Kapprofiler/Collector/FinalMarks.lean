import Kapprofiler.Collector.Growth
import Kapprofiler.Collector.PassProgress
import Kapprofiler.Collector.SingleTimer

/-! # Why a profile is final

Passes never make a profile final: the mark is set when a finalization timer fires, or on
request. A timer is started for a pod that is ready, by an update of a recorded pod, by the
start of a container that was attached to, and by the addition of a pod that is known already.
-/

namespace Kapprofiler.Collector

open Foundation

variable {config : CollectorManagerConfig}

/-- The call starts a timer for the pod, unless it panics. -/
inductive FinalizerCall.Starts (finalizer : Finalizer) : FinalizerCall → Pod → Prop
  | added {pod : Pod} {state : PodProfileFinalizerState} (hready : pod.ready = true)
      (hknown : finalizer.podFinalizerState.lookup
        (generateTableKey pod.name pod.nameSpace) = some state) :
      Starts finalizer (.handlePodAddEvent pod) pod
  | updated {pod : Pod} (hstarts : finalizer.UpdateStarts pod) :
      Starts finalizer (.handlePodUpdateEvent pod) pod
  | attached {pod : Pod} (hready : pod.ready = true) :
      Starts finalizer (.markAttachedPod pod) pod

/-- The step starts a finalization timer for the pod. -/
def Arms (system : System) (label : Label) (pod : Pod) : Prop :=
  ∃ call ∈ label.finalizerCalls system, call.Starts system.world.finalizer pod

/-- The step asks for the finalization of a tracked container's pod. -/
def Asks (system : System) (label : Label) (nameSpace podName : String) : Prop :=
  ∃ id, label = .finalizeApplicationProfile id ∧ id ∈ system.world.containers ∧
    id.nameSpace = nameSpace ∧ id.podName = podName

/-- The step gives a reason to mark the profile under the key as final. -/
def Finalizes (config : CollectorManagerConfig) (key : String × String) (system : System)
    (label : Label) : Prop :=
  (∃ pod, Arms system label pod ∧ config.podProfileKey pod.nameSpace pod.name = key) ∨
    ∃ nameSpace podName, Asks system label nameSpace podName ∧
      config.podProfileKey nameSpace podName = key

theorem FinalizerCall.Starts.ready {finalizer : Finalizer} {call : FinalizerCall} {pod : Pod}
    (hstarts : call.Starts finalizer pod) : pod.ready = true := by
  cases hstarts with
  | added hready => exact hready
  | updated hstarts => exact hstarts.1
  | attached hready => exact hready

/-! ## Timers -/

section Timers

variable {finalizer next : Finalizer} {call : FinalizerCall} {pod armed : Pod} {timer : Nat}

theorem armed_of_start {started : Nat × Finalizer}
    (hstart : finalizer.startFinalizationTimer config pod = some started)
    (harmed : started.2.timers timer = some armed) :
    finalizer.timers timer = some armed ∨ pod = armed := by
  rw [Finalizer.startFinalizationTimer_eq hstart] at harmed
  exact (Finalizer.armed_of_arm harmed).imp_right And.right

theorem armed_of_add (hadd : finalizer.handlePodAddEvent config pod = some next)
    (harmed : next.timers timer = some armed) :
    finalizer.timers timer = some armed ∨
      FinalizerCall.Starts finalizer (.handlePodAddEvent pod) armed := by
  unfold Finalizer.handlePodAddEvent at hadd
  split at hadd
  · cases hadd
    exact Or.inl harmed
  next state hstate =>
    split at hadd
    next hready =>
      obtain ⟨started, hstart, rfl⟩ := Option.map_eq_some_iff.mp hadd
      rcases armed_of_start hstart harmed with hbefore | rfl
      · exact Or.inl hbefore
      · exact Or.inr (.added hready hstate)
    next =>
      cases hadd
      exact Or.inl harmed

theorem armed_of_update (hupdate : finalizer.handlePodUpdateEvent config pod = some next)
    (harmed : next.timers timer = some armed) :
    finalizer.timers timer = some armed ∨
      FinalizerCall.Starts finalizer (.handlePodUpdateEvent pod) armed := by
  unfold Finalizer.handlePodUpdateEvent at hupdate
  split at hupdate
  · cases hupdate
    exact Or.inl harmed
  next state hstate =>
    split at hupdate
    next hrecording =>
      split at hupdate
      next hready =>
        split at hupdate
        · cases hupdate
          exact Or.inl harmed
        next htimer =>
          obtain ⟨started, hstart, rfl⟩ := Option.map_eq_some_iff.mp hupdate
          rcases armed_of_start hstart harmed with hbefore | rfl
          · exact Or.inl hbefore
          · exact Or.inr (.updated
              ⟨hready, state, hstate, hrecording, Option.not_isSome_iff_eq_none.mp htimer⟩)
      next =>
        cases hupdate
        exact Or.inl (Finalizer.stopTimer_timers.mp harmed).1
    next =>
      cases hupdate
      exact Or.inl harmed

/-- A timer that is armed after a call was armed before, or was started by the call. -/
theorem armed_of_call (hcall : call.on config finalizer = some next)
    (harmed : next.timers timer = some armed) :
    finalizer.timers timer = some armed ∨ call.Starts finalizer armed := by
  cases call with
  | handlePodAddEvent pod => exact armed_of_add hcall harmed
  | handlePodUpdateEvent pod => exact armed_of_update hcall harmed
  | handlePodDeleteEvent pod =>
      cases hcall
      exact Or.inl (Finalizer.stopTimer_timers.mp harmed).1
  | markAttachedPod pod =>
      simp only [FinalizerCall.on, Finalizer.markAttachedPod] at hcall
      split at hcall
      next hready =>
        obtain ⟨started, hstart, rfl⟩ := Option.map_eq_some_iff.mp hcall
        rcases armed_of_start hstart harmed with hbefore | rfl
        · exact Or.inl hbefore
        · exact Or.inr (.attached hready)
      next =>
        cases hcall
        exact Or.inl harmed
  | setRecording name nameSpace =>
      cases hcall
      rw [(Finalizer.setRecording_timers ..).1] at harmed
      exact Or.inl harmed
  | markPodNotRecording name nameSpace =>
      cases hcall
      rw [(Finalizer.markPodNotRecording_timers ..).1] at harmed
      exact Or.inl harmed
  | timerExpired expired =>
      obtain ⟨pod, _, rfl⟩ := Option.map_eq_some_iff.mp hcall
      exact Or.inl (Finalizer.armed_of_expire harmed)

end Timers

section Step

variable {system next : System} {label : Label}

/-- A step makes at most one call of the finalizer. -/
theorem finalizerCalls_eq (label : Label) (system : System) :
    label.finalizerCalls system = [] ∨ ∃ call, label.finalizerCalls system = [call] := by
  have hcalls : ∀ (answers : Answers) (current : Call), current.finalizerCalls answers = [] ∨
      ∃ call, current.finalizerCalls answers = [call] := by
    intro answers current
    unfold Call.finalizerCalls
    split
    · split
      · exact Or.inr ⟨_, rfl⟩
      · exact Or.inl rfl
    · exact Or.inr ⟨_, rfl⟩
    · exact Or.inr ⟨_, rfl⟩
    · exact Or.inl rfl
  cases label with
  | advance call answers =>
      simp only [Label.finalizerCalls]
      split
      · exact hcalls answers _
      · exact Or.inl rfl
  | containerStopped id =>
      simp only [Label.finalizerCalls]
      split
      · exact Or.inr ⟨_, rfl⟩
      · exact Or.inl rfl
  | podAdded | podUpdated | podDeleted | finalizationTimerExpired => exact Or.inr ⟨_, rfl⟩
  | containerStarted | timerExpired | sink | finalizeApplicationProfile => exact Or.inl rfl

/-- A timer that is armed after a step was armed before, or is started by the step. -/
theorem armed_of_step {timer : Nat} {pod : Pod} (hstep : step config system label = some next)
    (harmed : next.world.finalizer.timers timer = some pod) :
    system.world.finalizer.timers timer = some pod ∨ Arms system label pod := by
  have hrun := step_finalizer hstep
  rcases finalizerCalls_eq label system with hnone | ⟨call, hone⟩
  · rw [hnone] at hrun
    obtain heq := Option.some.inj hrun
    rw [← heq] at harmed
    exact Or.inl harmed
  · rw [hone] at hrun
    obtain ⟨after, hcall, hlast⟩ := (finalizerMachine config).run_cons.mp hrun
    obtain rfl := Option.some.inj hlast
    rcases armed_of_call hcall harmed with hbefore | hstarts
    · exact Or.inl hbefore
    · exact Or.inr ⟨call, by rw [hone]; exact List.mem_singleton_self _, hstarts⟩

/-- A final mark that is about to be set was launched by a timer or by a request. -/
theorem finalize_of_step {nameSpace podName : String}
    (hstep : step config system label = some next)
    (hcall : .finalizeProfile nameSpace podName false ∈ next.calls) :
    .finalizeProfile nameSpace podName false ∈ system.calls ∨
      (∃ timer pod, system.world.finalizer.timers timer = some pod ∧
        pod.nameSpace = nameSpace ∧ pod.name = podName) ∨
      Asks system label nameSpace podName := by
  -- Any other call that is launched leaves the finalization among the older ones.
  have hkept : ∀ call : Call, .finalizeProfile nameSpace podName false ∈ system.calls ++ [call] →
      call ≠ .finalizeProfile nameSpace podName false →
      .finalizeProfile nameSpace podName false ∈ system.calls := by
    intro call hmem hne
    rcases List.mem_append.mp hmem with hold | hnew
    · exact hold
    · exact absurd (List.mem_singleton.mp hnew).symm hne
  cases label with
  | advance call answers =>
      obtain ⟨current, after, hcurrent, hadvance, hcalls⟩ := step_advance hstep
      rw [hcalls] at hcall
      rcases List.mem_or_eq_of_mem_set hcall with hold | rfl
      · exact Or.inl hold
      · rcases Call.step_cases hadvance with
          ⟨_, _, _, _, _, _, heq, _⟩ | ⟨_, _, _, _, heq, _⟩ | ⟨_, _, _, heq, _⟩ |
          ⟨_, _, _, heq, _⟩ <;> cases heq
  | containerStarted id attach =>
      cases hstep
      exact Or.inl (hkept _ hcall (by simp))
  | containerStopped id =>
      cases hstep
      exact Or.inl (hkept _ hcall (by simp))
  | timerExpired id =>
      simp only [step] at hstep
      split at hstep <;> cases hstep
      exact Or.inl (hkept _ hcall (by simp))
  | sink op =>
      obtain ⟨sink, _, rfl⟩ := Option.map_eq_some_iff.mp hstep
      exact Or.inl hcall
  | podAdded pod =>
      obtain ⟨finalizer, _, rfl⟩ := Option.map_eq_some_iff.mp hstep
      exact Or.inl hcall
  | podUpdated pod =>
      obtain ⟨finalizer, _, rfl⟩ := Option.map_eq_some_iff.mp hstep
      exact Or.inl hcall
  | podDeleted pod =>
      cases hstep
      exact Or.inl (hkept _ hcall (by simp))
  | finalizationTimerExpired timer =>
      obtain ⟨pod, hpod, rfl⟩ := Option.map_eq_some_iff.mp hstep
      rcases List.mem_append.mp hcall with hold | hnew
      · exact Or.inl hold
      · cases List.mem_singleton.mp hnew
        exact Or.inr (Or.inl ⟨timer, pod, hpod, rfl, rfl⟩)
  | finalizeApplicationProfile id =>
      simp only [step] at hstep
      split at hstep
      next htracked =>
        cases hstep
        rcases List.mem_append.mp hcall with hold | hnew
        · exact Or.inl hold
        · cases List.mem_singleton.mp hnew
          exact Or.inr (Or.inr ⟨id, rfl, htracked, rfl, rfl⟩)
      next =>
        cases hstep
        exact Or.inl hcall

/-! ## Profiles -/

theorem not_final_newProfile (id : ContainerId) (found : ContainerState)
    (containerProfile : ContainerProfile) :
    ¬ (newProfile config id found containerProfile).isFinal := by
  have hlabels : finalLabel ≠ partialLabel ∧ finalLabel ≠ failedLabel ∧
      finalLabel ≠ namespaceLabel := by decide
  simp only [newProfile, ApplicationProfile.isFinal, newLabels, Labels.get]
  split <;> split <;> split <;> simp [Finmap.lookup_insert_of_ne, hlabels]

theorem not_final_mergedProfile {mounts : List String} {found : ContainerState}
    {existing : ApplicationProfile} {containerProfile : ContainerProfile}
    (hexisting : ¬ existing.isFinal) :
    ¬ (mergedProfile config mounts found existing containerProfile).isFinal :=
  fun hmerged => hexisting (Collecting.clearPartial_get (by decide) hmerged)

theorem isFinal_of_failed {profile : ApplicationProfile}
    (hmarked : (profile.mark failedLabel).isFinal) : profile.isFinal := by
  unfold ApplicationProfile.isFinal ApplicationProfile.mark Labels.get at hmarked
  rwa [Finmap.lookup_insert_of_ne _ (by decide)] at hmarked

/-- A profile that is final under the key is so for a good reason. -/
def FinalOnly (good : String × String → Prop) (key : String × String)
    (profile : ApplicationProfile) : Prop :=
  profile.isFinal → good key

theorem finalOnly_of_not_final {good : String × String → Prop} {key : String × String}
    {profile : ApplicationProfile} (hprofile : ¬ profile.isFinal) : FinalOnly good key profile :=
  fun hfinal => absurd hfinal hprofile

/-- Timers, pending marks and final profiles all have a good reason. -/
structure MarksExplained (config : CollectorManagerConfig) (good : String × String → Prop)
    (system : System) : Prop where
  copies : CopiesFaithful config system
  timers : ∀ timer pod, system.world.finalizer.timers timer = some pod →
    good (config.podProfileKey pod.nameSpace pod.name)
  calls : ∀ nameSpace podName, .finalizeProfile nameSpace podName false ∈ system.calls →
    good (config.podProfileKey nameSpace podName)
  profiles : system.world.profiles.Everywhere (FinalOnly good)

theorem MarksExplained.mono {good better : String × String → Prop}
    (hmarked : MarksExplained config good system) (hbetter : ∀ key, good key → better key) :
    MarksExplained config better system where
  copies := hmarked.copies
  timers timer pod harmed := hbetter _ (hmarked.timers timer pod harmed)
  calls nameSpace podName hcall := hbetter _ (hmarked.calls nameSpace podName hcall)
  profiles := hmarked.profiles.mono fun key _ honly hfinal => hbetter key (honly hfinal)

/-- Only the last part of a finalization makes a profile final. -/
theorem MarksExplained.step_profiles {good : String × String → Prop}
    (hmarked : MarksExplained config good system)
    (hstep : step config system label = some next) :
    next.world.profiles.Everywhere (FinalOnly good) := by
  rcases step_cases hstep with
    ⟨call, answers, current, after, rfl, hcurrent, hcall, _⟩ | ⟨launched, hchange, _⟩
  · have hmem := List.mem_of_getElem? hcurrent
    rcases Call.step_cases hcall with
      ⟨id, attach, state, started, rfl, hstarted, rfl, hworld⟩ | ⟨id, state, rfl, _, rfl, hworld⟩ |
      ⟨nameSpace, podName, rfl, rfl, hworld⟩ | ⟨nameSpace, podName, rfl, rfl, hworld⟩
    · rw [hworld]
      rcases startStep_cases hstarted with ⟨_, _, _, _, _, hsame⟩ | ⟨_, _, _, hsame⟩ <;>
        rw [hsame] <;> exact hmarked.profiles
    · rw [hworld]
      rcases collectStep_profiles config id answers system.world state with
        hsame | ⟨_, _, _, hcreate⟩ | ⟨_, hpatch⟩ | ⟨found, containerProfile, existing, rfl, hupdate⟩
      · rw [hsame]
        exact hmarked.profiles
      · exact hmarked.profiles.create (finalOnly_of_not_final (not_final_newProfile _ _ _)) hcreate
      · exact hmarked.profiles.patch (fun _ honly hfinal => honly (isFinal_of_failed hfinal)) hpatch
      -- A pass does not update a final profile: its copy was not final, and the merge marks
      -- nothing.
      · have hcopy := (hmarked.copies id _ existing hmem rfl).2
        exact hmarked.profiles.update
          (finalOnly_of_not_final (not_final_mergedProfile hcopy)) hupdate
    · rw [hworld]
      unfold finalizeProfile
      split
      next hpatch =>
        have hgood := hmarked.calls nameSpace podName hmem
        exact hmarked.profiles.patch (fun _ _ _ => hgood) (of_request hpatch)
      next => exact hmarked.profiles
    · rw [hworld]
      unfold deleteProfile
      split
      · exact hmarked.profiles
      · exact hmarked.profiles.delete _
  · rw [hchange.profiles]
    exact hmarked.profiles

theorem MarksExplained.step {good : String × String → Prop}
    (hmarked : MarksExplained config good system)
    (hreasons : ∀ key, Finalizes config key system label → good key)
    (hstep : step config system label = some next) : MarksExplained config good next where
  copies := step_copiesFaithful hmarked.copies hstep
  timers timer pod harmed := by
    rcases armed_of_step hstep harmed with hbefore | harms
    · exact hmarked.timers timer pod hbefore
    · exact hreasons _ (Or.inl ⟨pod, harms, rfl⟩)
  calls nameSpace podName hcall := by
    rcases finalize_of_step hstep hcall with hbefore | ⟨timer, pod, harmed, rfl, rfl⟩ | hasks
    · exact hmarked.calls nameSpace podName hbefore
    · exact hmarked.timers timer pod harmed
    · exact hreasons _ (Or.inr ⟨nameSpace, podName, hasks, rfl⟩)
  profiles := hmarked.step_profiles hstep

end Step

/-! ## Whole runs -/

/-- The profile was final at the start, or a step of the run gave a reason to finalize it. -/
def FinalReason (config : CollectorManagerConfig) (start : System) (labels : List Label)
    (key : String × String) : Prop :=
  (∃ object, start.world.profiles.get key = some object ∧ object.value.isFinal) ∨
    (machine config).Happens (Finalizes config key) start labels

theorem marks_explained_of_run {start last : System} {labels : List Label} (hinit : Initial start)
    (hrun : (machine config).run start labels = some last) :
    MarksExplained config (FinalReason config start labels) last := by
  refine (machine config).run_history_invariant
    (fun labels last => MarksExplained config (FinalReason config start labels) last) ?_ ?_ hrun
  · obtain ⟨_, _, _, hfinalizer, hcalls⟩ := hinit
    refine ⟨?_, ?_, ?_, ?_⟩
    · intro id state copy hcall
      rw [hcalls] at hcall
      cases hcall
    · intro timer pod harmed
      rw [hfinalizer] at harmed
      cases harmed
    · intro nameSpace podName hcall
      rw [hcalls] at hcall
      cases hcall
    · exact fun key object hobject hfinal => Or.inl ⟨object, hobject, hfinal⟩
  · intro labels state label next hbefore hmarked hstep
    have hlater : MarksExplained config (FinalReason config start (labels ++ [label])) state :=
      hmarked.mono fun key hreason => hreason.imp_right (Machine.Happens.concat _)
    exact hlater.step
      (fun key hreason => Or.inr ((machine config).happens_last hbefore hreason)) hstep

/-- Whatever the order of starts, passes, timers and pod events: a stored profile that is final
was final at the start, or the run has a step that started a finalization timer for a pod that
it found ready, or that asked for the finalization of a tracked container. -/
theorem final_profile_has_reason {start last : System} {labels : List Label}
    (hinit : Initial start) (hrun : (machine config).run start labels = some last)
    {key : String × String} {object : Versioned ApplicationProfile}
    (hobject : last.world.profiles.get key = some object) (hfinal : object.value.isFinal) :
    FinalReason config start labels key :=
  (marks_explained_of_run hinit hrun).profiles key object hobject hfinal

def readyNginx : Pod where
  name := "nginx"
  nameSpace := "default"
  conditions := [⟨"Ready", "True"⟩]

/-- The shell is recorded, the pod becomes ready, and its timer fires. -/
def readyRun : List Label :=
  recordingRun ++ .timerExpired nginx :: List.replicate 11 (.advance 1 {}) ++
    [.podUpdated readyNginx, .finalizationTimerExpired 0, .advance 2 {}]

theorem nginx_final_has_reason : ∃ last object,
    (machine mainConfig).run freshSystem readyRun = some last ∧
      last.world.profiles.get (nginx.profileKey mainConfig) = some object ∧
      object.value.isFinal ∧
      FinalReason mainConfig freshSystem readyRun (nginx.profileKey mainConfig) := by
  have hends : ((machine mainConfig).run freshSystem readyRun).any (fun last =>
      (last.world.profiles.get (nginx.profileKey mainConfig)).any fun object =>
        decide object.value.isFinal) = true := by
    decide +kernel
  obtain ⟨last, hrun, hlast⟩ := (Option.any_eq_true _ _).mp hends
  obtain ⟨object, hobject, hmarked⟩ := (Option.any_eq_true _ _).mp hlast
  have hfinal := of_decide_eq_true hmarked
  exact ⟨last, object, hrun, hobject, hfinal,
    final_profile_has_reason initial_freshSystem hrun hobject hfinal⟩

end Kapprofiler.Collector
