import Kapprofiler.Collector.FinalMarks
import Kapprofiler.Collector.Tracking

/-! # Finalization switched off

A finalization time of zero, or one that is not above the interval, is meant to switch the
finalization off: no pod is marked as recorded, so that no update of a pod starts a timer. The
addition of a pod does not ask for that mark.
-/

namespace Kapprofiler.Collector

open Foundation

variable {config : CollectorManagerConfig}

/-- `ContainerStarted` does not call `MarkPodRecording`. -/
def FinalizationOff (config : CollectorManagerConfig) : Prop :=
  ¬ (0 < config.finalizeTime ∧ config.interval < config.finalizeTime)

instance (config : CollectorManagerConfig) : Decidable (FinalizationOff config) :=
  inferInstanceAs (Decidable (¬ _))

/-- The table key of a pod that is added. -/
def Label.added : Label → Option String
  | .podAdded pod => some (generateTableKey pod.name pod.nameSpace)
  | _ => none

/-- The start is about to mark the pod as recorded. -/
def Call.marksRecording : Call → Prop
  | .containerStarted _ _ state => state = .markRecording ∨ state = .setRecording
  | _ => False

/-- No pod is recorded or about to be, and the table has only pods that were added. -/
structure Unrecorded (added : List String) (system : System) : Prop where
  starts : ∀ call ∈ system.calls, ¬ call.marksRecording
  recording : ∀ key, system.world.finalizer.recordingAt key = false
  known : ∀ key state, system.world.finalizer.podFinalizerState.lookup key = some state →
    key ∈ added

theorem startStep_unrecorded (hoff : FinalizationOff config) {id : ContainerId} {attach : Bool}
    {answers : Answers} {world : World} {state : StartState} {next : StartState × World}
    (hstep : startStep config id attach answers world state = some next)
    (hstate : ¬ (state = .markRecording ∨ state = .setRecording)) :
    ¬ (next.1 = .markRecording ∨ next.1 = .setRecording) := by
  cases state with
  | startTimer =>
      rw [startStep, if_neg hoff] at hstep
      cases hstep
      simp
  | markRecording => exact absurd (Or.inl rfl) hstate
  | setRecording => exact absurd (Or.inr rfl) hstate
  | checkProfile =>
      simp only [startStep] at hstep
      split at hstep <;> cases hstep <;> simp
  | fetchMounts =>
      simp only [startStep] at hstep
      split at hstep <;> cases hstep <;> simp
  | track => cases hstep; simp
  | startTrace => cases hstep; simp
  | returned => cases hstep

section Calls

variable {finalizer next : Finalizer} {call : FinalizerCall}

theorem recordingAt_of_call (hcall : call.on config finalizer = some next)
    (hset : ∀ name nameSpace, call ≠ .setRecording name nameSpace) {key : String}
    (hrecording : finalizer.recordingAt key = false) : next.recordingAt key = false := by
  cases call with
  | handlePodAddEvent pod =>
      rw [Finalizer.recordingAt_handlePodAddEvent hcall]
      exact hrecording
  | handlePodUpdateEvent pod =>
      rw [Finalizer.recordingAt_handlePodUpdateEvent hcall]
      exact hrecording
  | handlePodDeleteEvent pod =>
      cases hcall
      rw [Finalizer.recordingAt_stopTimer]
      exact hrecording
  | markAttachedPod pod =>
      simp only [FinalizerCall.on, Finalizer.markAttachedPod] at hcall
      split at hcall
      · obtain ⟨started, hstart, rfl⟩ := Option.map_eq_some_iff.mp hcall
        rw [Finalizer.recordingAt_startFinalizationTimer hstart]
        exact hrecording
      · cases hcall
        exact hrecording
  | setRecording name nameSpace => exact absurd rfl (hset name nameSpace)
  | markPodNotRecording name nameSpace =>
      cases hcall
      rw [Finalizer.recordingAt_markPodNotRecording]
      split
      · rfl
      · exact hrecording
  | timerExpired timer =>
      obtain ⟨pod, _, rfl⟩ := Option.map_eq_some_iff.mp hcall
      exact hrecording

theorem known_of_setState {key other : String} {state : PodProfileFinalizerState}
    (hknown : ((finalizer.setState key state).podFinalizerState.lookup other).isSome) :
    other = key ∨ (finalizer.podFinalizerState.lookup other).isSome := by
  by_cases hother : other = key
  · exact Or.inl hother
  · refine Or.inr ?_
    rwa [Finalizer.setState, Finmap.lookup_insert_of_ne _ hother] at hknown

theorem known_of_stopTimer {name nameSpace key : String}
    (hknown : ((finalizer.stopTimer name nameSpace).podFinalizerState.lookup key).isSome) :
    (finalizer.podFinalizerState.lookup key).isSome := by
  unfold Finalizer.stopTimer at hknown
  split at hknown
  · exact hknown
  next state hstate =>
    split at hknown
    · exact hknown
    · rcases known_of_setState hknown with rfl | hbefore
      · rw [hstate]
        rfl
      · exact hbefore

/-- Entries come into the table where a pod is added or marked as recorded. -/
theorem known_of_call (hcall : call.on config finalizer = some next)
    (hset : ∀ name nameSpace, call ≠ .setRecording name nameSpace) {key : String}
    (hknown : (next.podFinalizerState.lookup key).isSome) :
    (finalizer.podFinalizerState.lookup key).isSome ∨
      ∃ pod, call = .handlePodAddEvent pod ∧ generateTableKey pod.name pod.nameSpace = key := by
  cases call with
  | handlePodAddEvent pod =>
      simp only [FinalizerCall.on, Finalizer.handlePodAddEvent] at hcall
      split at hcall
      · cases hcall
        rcases known_of_setState hknown with hkey | hbefore
        · exact Or.inr ⟨pod, rfl, hkey.symm⟩
        · exact Or.inl hbefore
      · split at hcall
        · obtain ⟨started, hstart, rfl⟩ := Option.map_eq_some_iff.mp hcall
          rw [Finalizer.startFinalizationTimer_eq hstart] at hknown
          exact Or.inl hknown
        · cases hcall
          exact Or.inl hknown
  | handlePodUpdateEvent pod =>
      cases Finalizer.handlePodUpdateEvent_cases hcall with
      | notRecording => exact Or.inl hknown
      | timerRunning => exact Or.inl hknown
      | started hready hstate hstart =>
          rw [Finalizer.startFinalizationTimer_eq hstart] at hknown
          rcases known_of_setState hknown with rfl | hbefore
          · exact Or.inl (by rw [hstate]; rfl)
          · exact Or.inl hbefore
      | stopped => exact Or.inl (known_of_stopTimer hknown)
  | handlePodDeleteEvent pod =>
      cases hcall
      exact Or.inl (known_of_stopTimer hknown)
  | markAttachedPod pod =>
      simp only [FinalizerCall.on, Finalizer.markAttachedPod] at hcall
      split at hcall
      · obtain ⟨started, hstart, rfl⟩ := Option.map_eq_some_iff.mp hcall
        rw [Finalizer.startFinalizationTimer_eq hstart] at hknown
        exact Or.inl hknown
      · cases hcall
        exact Or.inl hknown
  -- The other call that enters a pod, and ruled out here.
  | setRecording name nameSpace => exact absurd rfl (hset name nameSpace)
  | markPodNotRecording name nameSpace =>
      cases hcall
      unfold Finalizer.markPodNotRecording at hknown
      split at hknown
      · exact Or.inl hknown
      next state hstate =>
        rcases known_of_setState hknown with rfl | hbefore
        · exact Or.inl (by rw [hstate]; rfl)
        · exact Or.inl hbefore
  | timerExpired timer =>
      obtain ⟨pod, _, rfl⟩ := Option.map_eq_some_iff.mp hcall
      exact Or.inl hknown

end Calls

/-! ## One step -/

section Step

variable {system next : System} {label : Label} {added : List String}

/-- Where no start is about to mark its pod, the finalizer's calls are those of pod events, of
timers, and of containers that are given up. -/
theorem finalizerCalls_of_unrecorded (hstarts : ∀ call ∈ system.calls, ¬ call.marksRecording)
    {call : FinalizerCall} (hcall : call ∈ label.finalizerCalls system) :
    (∀ name nameSpace, call ≠ .setRecording name nameSpace) ∧
      (∀ pod, call ≠ .markAttachedPod pod) ∧
      ∀ pod, call = .handlePodAddEvent pod → label = .podAdded pod := by
  cases label with
  | advance index answers =>
      simp only [Label.finalizerCalls] at hcall
      split at hcall
      next current hcurrent =>
        -- Only a start marks a pod, and no call that is there does.
        have hmarks := hstarts current (List.mem_of_getElem? hcurrent)
        unfold Call.finalizerCalls at hcall
        split at hcall
        · exact absurd (Or.inl rfl) hmarks
        · exact absurd (Or.inr rfl) hmarks
        · rw [List.mem_singleton.mp hcall]
          simp
        · cases hcall
      next => cases hcall
  | containerStopped id =>
      simp only [Label.finalizerCalls] at hcall
      split at hcall
      · rw [List.mem_singleton.mp hcall]
        simp
      · cases hcall
  | podAdded pod =>
      rw [List.mem_singleton.mp hcall]
      simp
  | podUpdated pod =>
      rw [List.mem_singleton.mp hcall]
      simp
  | podDeleted pod =>
      rw [List.mem_singleton.mp hcall]
      simp
  | finalizationTimerExpired timer =>
      rw [List.mem_singleton.mp hcall]
      simp
  | _ => cases hcall

theorem Call.step_unrecorded (hoff : FinalizationOff config) {call after : Call}
    {answers : Answers} {world later : World}
    (hstep : call.step config answers world = some (after, later))
    (hmarks : ¬ call.marksRecording) : ¬ after.marksRecording := by
  rcases Call.step_cases hstep with
    ⟨id, attach, state, started, rfl, hstarted, rfl, _⟩ | ⟨id, state, rfl, _, rfl, _⟩ |
    ⟨nameSpace, podName, rfl, rfl, _⟩ | ⟨nameSpace, podName, rfl, rfl, _⟩
  · exact startStep_unrecorded hoff hstarted hmarks
  · exact fun hmark => hmark
  · exact fun hmark => hmark
  · exact fun hmark => hmark

theorem starts_of_step (hoff : FinalizationOff config)
    (hstarts : ∀ call ∈ system.calls, ¬ call.marksRecording)
    (hstep : step config system label = some next) :
    ∀ call ∈ next.calls, ¬ call.marksRecording := by
  intro call hcall
  rcases step_cases hstep with
    ⟨index, answers, current, after, rfl, hcurrent, hadvance, hcalls⟩ | ⟨launched, hchange, hcalls⟩
  · rw [hcalls] at hcall
    rcases List.mem_or_eq_of_mem_set hcall with hold | rfl
    · exact hstarts call hold
    · exact Call.step_unrecorded hoff hadvance (hstarts current (List.mem_of_getElem? hcurrent))
  · rw [hcalls] at hcall
    rcases List.mem_append.mp hcall with hold | hnew
    · exact hstarts call hold
    · cases call with
      | containerStarted id attach state =>
          have hstate : state = .checkProfile := by
            generalize next.world = world at hchange
            cases hchange with
            | started => simp at hnew; exact hnew.2.2
            | stopped => simp at hnew
            | expired => simp at hnew
            | sink => cases hnew
            | finalizer _ hlaunched => cases hlaunched _ hnew
          rw [hstate]
          simp [Call.marksRecording]
      | _ => exact fun hmark => hmark

theorem Unrecorded.step (hoff : FinalizationOff config) (hbefore : Unrecorded added system)
    (hstep : step config system label = some next) :
    Unrecorded (added ++ label.added.toList) next := by
  have hrun := step_finalizer hstep
  rcases finalizerCalls_eq label system with hnone | ⟨call, hone⟩
  · rw [hnone] at hrun
    have hsame : next.world.finalizer = system.world.finalizer := (Option.some.inj hrun).symm
    refine ⟨starts_of_step hoff hbefore.starts hstep, ?_, ?_⟩
    · intro key
      rw [hsame]
      exact hbefore.recording key
    · intro key state hstate
      rw [hsame] at hstate
      exact List.mem_append_left _ (hbefore.known key state hstate)
  · rw [hone] at hrun
    obtain ⟨after, hcall, hlast⟩ := (finalizerMachine config).run_cons.mp hrun
    obtain rfl := Option.some.inj hlast
    have hmem : call ∈ label.finalizerCalls system := by
      rw [hone]
      exact List.mem_singleton_self _
    obtain ⟨hset, _, hadd⟩ := finalizerCalls_of_unrecorded hbefore.starts hmem
    refine ⟨starts_of_step hoff hbefore.starts hstep, ?_, ?_⟩
    · exact fun key => recordingAt_of_call hcall hset (hbefore.recording key)
    · intro key state hstate
      rcases known_of_call hcall hset (by rw [hstate]; rfl) with hknown | ⟨pod, rfl, rfl⟩
      · obtain ⟨found, hfound⟩ := Option.isSome_iff_exists.mp hknown
        exact List.mem_append_left _ (hbefore.known key found hfound)
      · rw [hadd pod rfl]
        exact List.mem_append_right _ (List.mem_singleton_self _)

/-- A timer is started only for a pod that is added while its entry is there. -/
theorem Unrecorded.added_of_arms (hunrecorded : Unrecorded added system) {pod : Pod}
    (harms : Arms system label pod) :
    label = .podAdded pod ∧ generateTableKey pod.name pod.nameSpace ∈ added := by
  obtain ⟨call, hcall, hstarts⟩ := harms
  obtain ⟨_, hattached, hadd⟩ := finalizerCalls_of_unrecorded hunrecorded.starts hcall
  cases hstarts with
  | added hready hknown => exact ⟨hadd pod rfl, hunrecorded.known _ _ hknown⟩
  | updated hupdate =>
      obtain ⟨_, state, hstate, hrecording, _⟩ := hupdate
      have hnot := hunrecorded.recording (generateTableKey pod.name pod.nameSpace)
      rw [Finalizer.recordingAt_of_some hstate, hrecording] at hnot
      cases hnot
  | attached => exact absurd rfl (hattached pod)

end Step

/-! ## Whole runs -/

theorem unrecorded_of_run (hoff : FinalizationOff config) {start last : System}
    {labels : List Label} (hinit : Initial start)
    (hrun : (machine config).run start labels = some last) :
    Unrecorded (labels.filterMap Label.added) last := by
  refine (machine config).run_history_invariant
    (fun labels last => Unrecorded (labels.filterMap Label.added) last) ?_ ?_ hrun
  · obtain ⟨_, _, _, hfinalizer, hcalls⟩ := hinit
    refine ⟨?_, ?_, ?_⟩
    · intro call hcall
      rw [hcalls] at hcall
      cases hcall
    · intro key
      rw [hfinalizer]
      rfl
    · intro key state hstate
      rw [hfinalizer] at hstate
      cases hstate
  · intro labels state label next _ hunrecorded hstep
    have hnext := hunrecorded.step hoff hstep
    rw [List.filterMap_append]
    have hlast : [label].filterMap Label.added = label.added.toList := by
      cases hadded : label.added with
      | none => simp [hadded]
      | some key => simp [hadded]
    rwa [hlast]

/-- With the finalization switched off, and unless it is asked for, no profile becomes final
in a run that adds every pod of the table at most once. -/
theorem off_keeps_profiles_open (hoff : FinalizationOff config) {start last : System}
    {labels : List Label} (hinit : Initial start)
    (hrun : (machine config).run start labels = some last)
    (honce : (labels.filterMap Label.added).Nodup)
    (hasked : ∀ id, .finalizeApplicationProfile id ∉ labels) {key : String × String}
    {object : Versioned ApplicationProfile}
    (hobject : last.world.profiles.get key = some object) (hfinal : object.value.isFinal) :
    ∃ earlier, start.world.profiles.get key = some earlier ∧ earlier.value.isFinal := by
  have hmarks := marks_explained_of_run hinit hrun
  rcases hmarks.profiles key object hobject hfinal with hstart | hreason
  · exact hstart
  · obtain ⟨before, label, after, state, rfl, hbefore, hfinalizes⟩ := hreason
    rcases hfinalizes with ⟨pod, harms, _⟩ | ⟨_, _, ⟨id, rfl, _⟩, _⟩
    · obtain ⟨rfl, hadded⟩ := (unrecorded_of_run hoff hinit hbefore).added_of_arms harms
      simp only [List.filterMap_append, List.filterMap_cons, Label.added] at honce
      exact absurd rfl ((List.nodup_append.mp honce).2.2 _ hadded _ List.mem_cons_self)
    · exact absurd (List.mem_append_right _ List.mem_cons_self) (hasked id)

/-- The configuration of `main`, with a finalization time of zero. -/
def offConfig : CollectorManagerConfig := { mainConfig with finalizeTime := 0 }

def finalRedis : ApplicationProfile where
  name := "pod-redis"
  labels := (∅ : Labels).insert finalLabel "true"
  spec := ⟨[]⟩

/-- The profile of another pod is final. -/
def finalStart : System :=
  { freshSystem with world := { freshSystem.world with
      profiles := VersionedStore.empty.put ("default", "pod-redis") finalRedis } }

/-- The shell is recorded, and the pod is added and becomes ready. -/
def offRun : List Label :=
  .containerStarted nginx false :: List.replicate 5 (.advance 0 {}) ++ shellRun ++
    .timerExpired nginx :: List.replicate 11 (.advance 1 {}) ++
    [.podAdded readyNginx, .podUpdated readyNginx]

theorem nginx_open_when_off : ∃ last object own,
    (machine offConfig).run finalStart offRun = some last ∧
      (last.world.profiles.get (nginx.profileKey offConfig) = some own ∧ ¬ own.value.isFinal) ∧
      (last.world.profiles.get ("default", "pod-redis") = some object ∧ object.value.isFinal) ∧
      ∃ earlier, finalStart.world.profiles.get ("default", "pod-redis") = some earlier ∧
        earlier.value.isFinal := by
  have hends : ((machine offConfig).run finalStart offRun).any (fun last =>
      ((last.world.profiles.get (nginx.profileKey offConfig)).any fun own =>
        !decide own.value.isFinal) &&
      (last.world.profiles.get ("default", "pod-redis")).any fun object =>
        decide object.value.isFinal) = true := by decide +kernel
  obtain ⟨last, hrun, hlast⟩ := (Option.any_eq_true _ _).mp hends
  obtain ⟨hown, hother⟩ := Bool.and_eq_true_iff.mp hlast
  obtain ⟨own, hstored, hopen⟩ := (Option.any_eq_true _ _).mp hown
  obtain ⟨object, hobject, hfinal⟩ := (Option.any_eq_true _ _).mp hother
  rw [decide_eq_true_eq] at hfinal
  refine ⟨last, object, own, hrun, ⟨hstored, by simpa using hopen⟩, ⟨hobject, hfinal⟩, ?_⟩
  exact off_keeps_profiles_open (by decide) ⟨rfl, rfl, rfl, rfl, rfl⟩ hrun (by decide)
    (by simp [offRun, shellRun]) hobject hfinal

/-- A pod that is added once more, as after a restart of the watch, is finalized all the
same. -/
example : ((machine offConfig).run freshSystem
      (offRun ++ [.podAdded readyNginx, .finalizationTimerExpired 0, .advance 2 {}])).any
    (fun last => (last.world.profiles.get (nginx.profileKey offConfig)).any fun object =>
      decide object.value.isFinal) = true := by
  decide +kernel

end Kapprofiler.Collector
