import Kapprofiler.Collector.System

/-! # What one step can do

For every function of the manager, the parts of the world it leaves alone and
the changes it can make to the others. Results about runs use these facts and do
not unfold the functions again.
-/

namespace Kapprofiler.Collector

open Foundation

variable {config : CollectorManagerConfig} {world : World} {id : ContainerId}

/-! ## The helpers of the world -/

/-- Apart from the mount cache, dropping a pod's mounts changes nothing. -/
theorem dropPodMounts_eq (world : World) (id : ContainerId) : ∃ cache,
    dropPodMounts world id = { world with podMountCache := cache } := by
  unfold dropPodMounts
  split
  · exact ⟨world.podMountCache, rfl⟩
  · exact ⟨world.podMountCache.erase (mountKey id), rfl⟩

/-- There is nothing to untrack. -/
theorem erase_of_untracked (hmissing : id ∉ world.containers) :
    world.containers.erase id = world.containers := by
  apply Finmap.ext_lookup
  intro other
  by_cases hother : other = id
  · rw [hother, Finmap.lookup_erase, Finmap.lookup_eq_none.mpr hmissing]
  · exact Finmap.lookup_erase_ne hother

/-- A stop untracks its container and leaves the timers, the profiles and the
buckets of the sink alone. -/
theorem containerStopped_untracks (world : World) (id : ContainerId) :
    (containerStopped world id).containers = world.containers.erase id ∧
      (containerStopped world id).timers = world.timers ∧
      (containerStopped world id).profiles = world.profiles ∧
      ((containerStopped world id).eventSink = world.eventSink ∨
        (containerStopped world id).eventSink =
          world.eventSink.removeFilter ⟨.allEventType, id.containerID⟩) := by
  unfold containerStopped
  split
  next =>
    obtain ⟨cache, heq⟩ := dropPodMounts_eq
      ((((world.markPodNotRecording id).stopTraceContainer id).removeFilter id).untrack id) id
    rw [heq]
    exact ⟨rfl, rfl, rfl, Or.inr rfl⟩
  next hmissing => exact ⟨(erase_of_untracked hmissing).symm, rfl, rfl, Or.inl rfl⟩

section Finalization

variable (config : CollectorManagerConfig) (answers : Answers) (world : World)
  (nameSpace podName : String)

/-- A finalization writes the profiles and nothing else. -/
theorem finalizeProfile_eq : ∃ profiles,
    finalizeProfile config answers world nameSpace podName =
      { world with profiles := profiles } := by
  unfold finalizeProfile
  split
  next profiles _ => exact ⟨profiles, rfl⟩
  next => exact ⟨world.profiles, rfl⟩

theorem deleteProfile_eq : ∃ profiles,
    deleteProfile config answers world nameSpace podName =
      { world with profiles := profiles } := by
  unfold deleteProfile
  split
  · exact ⟨world.profiles, rfl⟩
  · exact ⟨_, rfl⟩

end Finalization

/-! ## Steps of a start -/

section Start

variable {attach : Bool} {answers : Answers} {state : StartState} {next : StartState × World}

/-- What a step of a start does, from which state to which. -/
inductive StartChange (config : CollectorManagerConfig) (id : ContainerId) (attach : Bool)
    (answers : Answers) (world : World) : StartState → StartState × World → Prop
  | recorded : StartChange config id attach answers world .checkProfile (.returned, world)
  | notRecorded : StartChange config id attach answers world .checkProfile (.track, world)
  | track : StartChange config id attach answers world .track (.fetchMounts,
      World.addFilter { world with containers := world.containers.insert id ⟨true, attach⟩ } id)
  | mounts (podMountCache : Finmap fun _ : String => List String) :
      StartChange config id attach answers world .fetchMounts
        (.startTrace, { world with podMountCache := podMountCache })
  | trace : StartChange config id attach answers world .startTrace
      (.startTimer, world.startTraceContainer id)
  | timer : StartChange config id attach answers world .startTimer
      (.markRecording, world.startContainerTimer id)
  | lastTimer (hshort : ¬ (0 < config.finalizeTime ∧ config.interval < config.finalizeTime)) :
      StartChange config id attach answers world .startTimer
        (.returned, world.startContainerTimer id)
  | podMissing (hattach : attach = true)
      (hmissing : answers.cluster.pods id.nameSpace id.podName = none) :
      StartChange config id attach answers world .markRecording (.returned, world)
  | finalizationTimer {pod : Pod} {started : Nat × Finalizer} (hattach : attach = true)
      (hpod : answers.cluster.pods id.nameSpace id.podName = some pod) (hready : pod.ready = true)
      (hstart : world.finalizer.startFinalizationTimer config pod = some started) :
      StartChange config id attach answers world .markRecording
        (.setRecording, { world with finalizer := started.2 })
  | noFinalizationTimer (hready : attach = true → ∃ pod,
      answers.cluster.pods id.nameSpace id.podName = some pod ∧ pod.ready = false) :
      StartChange config id attach answers world .markRecording (.setRecording, world)
  | record : StartChange config id attach answers world .setRecording (.returned, { world with
      finalizer := world.finalizer.setRecording id.podName id.nameSpace })

theorem startStep_change (hstep : startStep config id attach answers world state = some next) :
    StartChange config id attach answers world state next := by
  cases state with
  | checkProfile =>
      simp only [startStep] at hstep
      split at hstep <;> cases hstep
      · exact .recorded
      · exact .notRecorded
  | track =>
      cases hstep
      exact .track
  | fetchMounts =>
      simp only [startStep] at hstep
      split at hstep <;> cases hstep <;> exact .mounts _
  | startTrace =>
      cases hstep
      exact .trace
  | startTimer =>
      simp only [startStep] at hstep
      split at hstep <;> cases hstep
      · exact .timer
      next hshort => exact .lastTimer hshort
  | markRecording =>
      simp only [startStep] at hstep
      by_cases hattach : attach = true
      · rw [if_pos hattach] at hstep
        cases hpod : answers.cluster.pods id.nameSpace id.podName with
        | none =>
            rw [hpod] at hstep
            cases hstep
            exact .podMissing hattach hpod
        | some pod =>
            simp only [hpod] at hstep
            by_cases hready : pod.ready = true
            · rw [if_pos hready] at hstep
              obtain ⟨started, hstart, rfl⟩ := Option.map_eq_some_iff.mp hstep
              exact .finalizationTimer hattach hpod hready hstart
            · rw [if_neg hready] at hstep
              cases hstep
              exact .noFinalizationTimer fun _ => ⟨pod, hpod, Bool.eq_false_iff.mpr hready⟩
      · rw [if_neg hattach] at hstep
        cases hstep
        exact .noFinalizationTimer fun htrue => absurd htrue hattach
  | setRecording =>
      cases hstep
      exact .record
  | returned => cases hstep

/-- A start tracks its container and filters its events in one step, arms its
timer in another, and does not write profiles. -/
theorem startStep_cases (hstep : startStep config id attach answers world state = some next) :
    (state = .track ∧ next.1 = .fetchMounts ∧
      next.2.containers = world.containers.insert id ⟨true, attach⟩ ∧
      next.2.eventSink = world.eventSink.addFilter ⟨.allEventType, id.containerID⟩ ∧
      next.2.timers = world.timers ∧ next.2.profiles = world.profiles) ∨
    (next.2.containers = world.containers ∧ next.2.eventSink = world.eventSink ∧
      (next.2.timers = world.timers ∨
        state = .startTimer ∧ next.2.timers = id ::ₘ world.timers) ∧
      next.2.profiles = world.profiles) := by
  cases startStep_change hstep with
  | track => exact Or.inl ⟨rfl, rfl, rfl, rfl, rfl, rfl⟩
  | timer | lastTimer => exact Or.inr ⟨rfl, rfl, Or.inr ⟨rfl, rfl⟩, rfl⟩
  | _ => exact Or.inr ⟨rfl, rfl, Or.inl rfl, rfl⟩

end Start

/-! ## Steps of a pass -/

section Pass

variable (config : CollectorManagerConfig) (id : ContainerId) (answers : Answers)
  (world : World) (state : PassState)

/-- What a step of a pass can change in the world, and from which state. -/
inductive PassChange : PassState → World → Prop
  | nothing {state : PassState} : PassChange state world
  | load {found : ContainerState} {source : EventSource} {rest : List EventSource}
      {totalEvents : TotalEvents} :
      PassChange (.load found (source :: rest) totalEvents) { world with
        eventSink := (loadEvents id answers.peek totalEvents world.eventSink source).2 }
  | removeFilter {exit : PassExit} : PassChange (.removeFilter exit) (world.removeFilter id)
  | stopTrace {exit : PassExit} : PassChange (.stopTrace exit) (world.stopTraceContainer id)
  | markNotRecording {exit : PassExit} :
      PassChange (.markNotRecording exit) (world.markPodNotRecording id)
  | untrack {exit : PassExit} : PassChange (.untrack exit) (world.untrack id)
  | restartTimer {exit : PassExit} :
      PassChange (.restartTimer exit) (world.startContainerTimer id)
  | create {found : ContainerState} {containerProfile : ContainerProfile}
      {profiles : ProfileStore}
      (hcreate : world.profiles.create (id.profileKey config)
        (newProfile config id found containerProfile) = some profiles) :
      PassChange (.create found containerProfile) { world with profiles := profiles }
  | mark {state : PassState} {profiles : ProfileStore}
      (hstate : (∃ found containerProfile existing,
        state = .limitPatch found containerProfile existing) ∨ state = .failedPatch)
      (hpatch : world.profiles.patch (id.profileKey config)
        (ApplicationProfile.mark failedLabel) = some profiles) :
      PassChange state { world with profiles := profiles }
  | update {found : ContainerState} {containerProfile : ContainerProfile}
      {existing : Versioned ApplicationProfile} {profiles : ProfileStore}
      (hupdate : world.profiles.update (id.profileKey config)
        (mergedProfile config (world.mounts id) found existing.value containerProfile)
        existing.version = some profiles) :
      PassChange (.update found containerProfile existing) { world with profiles := profiles }

theorem collectStep_change : PassChange config id answers world state
    (collectStep config id answers world state).2 := by
  cases state with
  | lookup => simp only [collectStep]; split <;> exact .nothing
  | load found remaining totalEvents =>
      cases remaining with
      | nil => simp only [collectStep]; split <;> exact .nothing
      | cons source rest => exact .load
  | get found containerProfile =>
      simp only [collectStep]
      split
      · exact .nothing
      · split
        · exact .nothing
        · split <;> exact .nothing
  | create found containerProfile =>
      simp only [collectStep]
      split
      next hcreate => exact .create (of_request hcreate)
      next => exact .nothing
  | limitPatch found containerProfile existing =>
      simp only [collectStep]
      split
      next hpatch =>
        exact .mark (Or.inl ⟨found, containerProfile, existing, rfl⟩) (of_request hpatch)
      next => exact .nothing
  | update found containerProfile existing =>
      simp only [collectStep]
      split
      next hupdate => exact .update (of_request hupdate)
      next => exact .nothing
  | removeFilter exit => exact .removeFilter
  | stopTrace exit => exact .stopTrace
  | markNotRecording exit => exact .markNotRecording
  | untrack exit => exact .untrack
  | failedPatch =>
      simp only [collectStep]
      split
      next hpatch => exact .mark (Or.inr rfl) (of_request hpatch)
      next => exact .nothing
  | restartTimer exit => exact .restartTimer
  | returned exit => exact .nothing

/-- A pass untracks its container in one step and arms its timer in another. -/
theorem collectStep_tracks :
    ((collectStep config id answers world state).2.containers = world.containers ∨
      (∃ exit, state = .untrack exit) ∧
        (collectStep config id answers world state).2.containers = world.containers.erase id) ∧
    ((collectStep config id answers world state).2.timers = world.timers ∨
      ∃ exit, state = .restartTimer exit ∧
        (collectStep config id answers world state).2.timers = id ::ₘ world.timers) := by
  have hchange := collectStep_change config id answers world state
  generalize (collectStep config id answers world state).2 = after at hchange ⊢
  cases hchange with
  | untrack => exact ⟨Or.inr ⟨⟨_, rfl⟩, rfl⟩, Or.inl rfl⟩
  | restartTimer => exact ⟨Or.inl rfl, Or.inr ⟨_, rfl, rfl⟩⟩
  | _ => exact ⟨Or.inl rfl, Or.inl rfl⟩

/-- A pass touches the sink where it loads its batch and where it stops filtering. -/
theorem collectStep_eventSink :
    (collectStep config id answers world state).2.eventSink = world.eventSink ∨
      (collectStep config id answers world state).2.eventSink =
        world.eventSink.removeFilter ⟨.allEventType, id.containerID⟩ ∨
      ∃ found source rest totalEvents, state = .load found (source :: rest) totalEvents ∧
        (collectStep config id answers world state).2.eventSink =
          (loadEvents id answers.peek totalEvents world.eventSink source).2 := by
  have hchange := collectStep_change config id answers world state
  generalize (collectStep config id answers world state).2 = after at hchange ⊢
  cases hchange with
  | load => exact Or.inr (Or.inr ⟨_, _, _, _, rfl, rfl⟩)
  | removeFilter => exact Or.inr (Or.inl rfl)
  | _ => exact Or.inl rfl

/-- The only writes of a pass are one create, the failed mark, and one update that
presents the version of the profile the pass read. -/
theorem collectStep_profiles :
    (collectStep config id answers world state).2.profiles = world.profiles ∨
      (∃ found containerProfile, state = .create found containerProfile ∧
        world.profiles.create (id.profileKey config)
            (newProfile config id found containerProfile) =
          some (collectStep config id answers world state).2.profiles) ∨
      (((∃ found containerProfile existing, state = .limitPatch found containerProfile existing) ∨
          state = .failedPatch) ∧
        world.profiles.patch (id.profileKey config) (ApplicationProfile.mark failedLabel) =
          some (collectStep config id answers world state).2.profiles) ∨
      ∃ found containerProfile existing, state = .update found containerProfile existing ∧
        world.profiles.update (id.profileKey config)
            (mergedProfile config (world.mounts id) found existing.value containerProfile)
            existing.version =
          some (collectStep config id answers world state).2.profiles := by
  have hchange := collectStep_change config id answers world state
  generalize (collectStep config id answers world state).2 = after at hchange ⊢
  cases hchange with
  | create hcreate => exact Or.inr (Or.inl ⟨_, _, rfl, hcreate⟩)
  | mark hstate hpatch => exact Or.inr (Or.inr (Or.inl ⟨hstate, hpatch⟩))
  | update hupdate => exact Or.inr (Or.inr (Or.inr ⟨_, _, _, rfl, hupdate⟩))
  | _ => exact Or.inl rfl

variable {config id answers world state}

/-- The copy of the stored profile that a pass holds between its get and its update. -/
def PassState.copy : PassState → Option (Versioned ApplicationProfile)
  | .limitPatch _ _ existing => some existing
  | .update _ _ existing => some existing
  | _ => none

/-- A pass gets its copy from a profile that is stored and not final. -/
theorem collectStep_copy {copy : Versioned ApplicationProfile}
    (hcopy : (collectStep config id answers world state).1.copy = some copy) :
    state.copy = some copy ∨
      world.profiles.get (id.profileKey config) = some copy ∧ ¬ copy.value.isFinal := by
  cases state with
  | get found containerProfile =>
      simp only [collectStep] at hcopy
      split at hcopy
      · cases hcopy
      next existing hget =>
        split at hcopy
        · cases hcopy
        next hfinal =>
          split at hcopy <;> cases hcopy <;> exact Or.inr ⟨of_request hget, hfinal⟩
  | limitPatch found containerProfile existing =>
      simp only [collectStep] at hcopy
      split at hcopy <;> cases hcopy <;> exact Or.inl rfl
  | update found containerProfile existing =>
      simp only [collectStep] at hcopy
      split at hcopy <;> cases hcopy
  | lookup => simp only [collectStep] at hcopy; split at hcopy <;> cases hcopy
  | load found remaining totalEvents =>
      cases remaining with
      | nil => simp only [collectStep] at hcopy; split at hcopy <;> cases hcopy
      | cons source rest => cases hcopy
  | create found containerProfile =>
      simp only [collectStep] at hcopy; split at hcopy <;> cases hcopy
  | failedPatch => simp only [collectStep] at hcopy; split at hcopy <;> cases hcopy
  | removeFilter exit => cases hcopy
  | stopTrace exit => cases hcopy
  | markNotRecording exit => cases hcopy
  | untrack exit => simp only [collectStep] at hcopy; split at hcopy <;> cases hcopy
  | restartTimer exit => cases hcopy
  | returned exit => cases hcopy

end Pass

/-! ## Steps of the machine -/

/-- A step of a call starts a container, collects one, or makes the request of a
finalization or a deletion. -/
theorem Call.step_cases {call next : Call} {answers : Answers} {after : World}
    (hstep : call.step config answers world = some (next, after)) :
    (∃ id attach state started, call = .containerStarted id attach state ∧
      startStep config id attach answers world state = some started ∧
      next = .containerStarted id attach started.1 ∧ after = started.2) ∨
    (∃ id state, call = .collectContainerEvents id state ∧ (∀ exit, state ≠ .returned exit) ∧
      next = .collectContainerEvents id (collectStep config id answers world state).1 ∧
      after = (collectStep config id answers world state).2) ∨
    (∃ nameSpace podName, call = .finalizeProfile nameSpace podName false ∧
      next = .finalizeProfile nameSpace podName true ∧
      after = Collector.finalizeProfile config answers world nameSpace podName) ∨
    ∃ nameSpace podName, call = .deleteProfile nameSpace podName false ∧
      next = .deleteProfile nameSpace podName true ∧
      after = Collector.deleteProfile config answers world nameSpace podName := by
  cases call with
  | containerStarted id attach state =>
      obtain ⟨started, hstarted, heq⟩ := Option.map_eq_some_iff.mp hstep
      cases heq
      exact Or.inl ⟨id, attach, state, started, rfl, hstarted, rfl, rfl⟩
  | collectContainerEvents id state =>
      refine Or.inr (Or.inl ⟨id, state, rfl, ?_, ?_⟩)
      · rintro exit rfl
        cases hstep
      · cases state <;> cases hstep <;> exact ⟨rfl, rfl⟩
  | finalizeProfile nameSpace podName returned =>
      cases returned <;> cases hstep
      exact Or.inr (Or.inr (Or.inl ⟨nameSpace, podName, rfl, rfl, rfl⟩))
  | deleteProfile nameSpace podName returned =>
      cases returned <;> cases hstep
      exact Or.inr (Or.inr (Or.inr ⟨nameSpace, podName, rfl, rfl, rfl⟩))

/-- What a label other than an advance changes in the world, and the calls it launches. -/
inductive LabelChange (config : CollectorManagerConfig) (world : World) :
    Label → World → List Call → Prop
  | started (id : ContainerId) (attach : Bool) :
      LabelChange config world (.containerStarted id attach) world
        [.containerStarted id attach .checkProfile]
  | stopped (id : ContainerId) :
      LabelChange config world (.containerStopped id) (Collector.containerStopped world id)
        [.collectContainerEvents id .lookup]
  | expired (id : ContainerId) (htimer : id ∈ world.timers) :
      LabelChange config world (.timerExpired id) { world with timers := world.timers.erase id }
        [.collectContainerEvents id .lookup]
  | sink {op : EventSink.Op} {sink : EventSink} (hsink : world.eventSink.step op = some sink) :
      LabelChange config world (.sink op) { world with eventSink := sink } []
  | finalizer {label : Label} (finalizer : Finalizer) {launched : List Call}
      (hlaunched : ∀ call ∈ launched, call.container = none) :
      LabelChange config world label { world with finalizer := finalizer } launched

/-- A pass is launched at its beginning. -/
theorem LabelChange.launches_lookup {world next : World} {label : Label} {launched : List Call}
    {id : ContainerId} {state : PassState} (hchange : LabelChange config world label next launched)
    (hcall : Call.collectContainerEvents id state ∈ launched) : state = .lookup := by
  cases hchange with
  | started => simp at hcall
  | stopped => simp at hcall; exact hcall.2
  | expired => simp at hcall; exact hcall.2
  | sink => simp at hcall
  | finalizer _ hlaunched => cases hlaunched _ hcall

/-- A step advances one call, or changes the world and launches calls. -/
theorem step_cases {system next : System} {label : Label}
    (hstep : step config system label = some next) :
    (∃ call answers current after, label = .advance call answers ∧
      system.calls[call]? = some current ∧
      current.step config answers system.world = some (after, next.world) ∧
      next.calls = system.calls.set call after) ∨
    ∃ launched, LabelChange config system.world label next.world launched ∧
      next.calls = system.calls ++ launched := by
  have hnone : ∀ call ∈ ([] : List Call), call.container = none := by simp
  cases label with
  | containerStarted id attach => cases hstep; exact Or.inr ⟨_, .started id attach, rfl⟩
  | containerStopped id => cases hstep; exact Or.inr ⟨_, .stopped id, rfl⟩
  | timerExpired id =>
      simp only [step] at hstep
      split at hstep
      next htimer => cases hstep; exact Or.inr ⟨_, .expired id htimer, rfl⟩
      next => cases hstep
  | advance call answers =>
      obtain ⟨current, hcurrent, hmap⟩ := Option.bind_eq_some_iff.mp hstep
      obtain ⟨⟨after, world⟩, hcall, rfl⟩ := Option.map_eq_some_iff.mp hmap
      exact Or.inl ⟨call, answers, current, after, rfl, hcurrent, hcall, rfl⟩
  | sink op =>
      obtain ⟨sink, hsink, rfl⟩ := Option.map_eq_some_iff.mp hstep
      exact Or.inr ⟨[], .sink hsink, (List.append_nil _).symm⟩
  | podAdded pod =>
      obtain ⟨finalizer, _, rfl⟩ := Option.map_eq_some_iff.mp hstep
      exact Or.inr ⟨[], .finalizer finalizer hnone, (List.append_nil _).symm⟩
  | podUpdated pod =>
      obtain ⟨finalizer, _, rfl⟩ := Option.map_eq_some_iff.mp hstep
      exact Or.inr ⟨[], .finalizer finalizer hnone, (List.append_nil _).symm⟩
  | podDeleted pod =>
      cases hstep
      exact Or.inr ⟨_, .finalizer _ (by simp [Call.container]), rfl⟩
  | finalizationTimerExpired timer =>
      obtain ⟨pod, _, rfl⟩ := Option.map_eq_some_iff.mp hstep
      exact Or.inr ⟨_, .finalizer _ (by simp [Call.container]), rfl⟩
  | finalizeApplicationProfile id =>
      simp only [step] at hstep
      split at hstep <;> cases hstep
      · exact Or.inr ⟨_, .finalizer system.world.finalizer (by simp [Call.container]), rfl⟩
      · exact Or.inr ⟨[], .finalizer system.world.finalizer hnone, (List.append_nil _).symm⟩

/-- What a step does to the sink: a start adds the filter of its container, a stop or a pass
takes one away, a pass drains a source, and the sink takes its own steps. -/
inductive SinkChange (config : CollectorManagerConfig) (system next : System) : Label → Prop
  | same {label : Label} (hsink : next.world.eventSink = system.world.eventSink) :
      SinkChange config system next label
  | addFilter {call : Nat} {answers : Answers} {id : ContainerId} {attach : Bool}
      (hcall : system.calls[call]? = some (.containerStarted id attach .track))
      (hsink : next.world.eventSink =
        system.world.eventSink.addFilter ⟨.allEventType, id.containerID⟩) :
      SinkChange config system next (.advance call answers)
  | removeFilter {label : Label} (filter : EventSinkFilter)
      (hsink : next.world.eventSink = system.world.eventSink.removeFilter filter) :
      SinkChange config system next label
  | load {call : Nat} {answers : Answers} {id : ContainerId} {found : ContainerState}
      {source : EventSource} {rest : List EventSource} {batch : TotalEvents}
      (hcall : system.calls[call]? =
        some (.collectContainerEvents id (.load found (source :: rest) batch)))
      (hcalls : next.calls = system.calls.set call (.collectContainerEvents id (.load found rest
        (loadEvents id answers.peek batch system.world.eventSink source).1)))
      (hsink : next.world.eventSink =
        (loadEvents id answers.peek batch system.world.eventSink source).2) :
      SinkChange config system next (.advance call answers)
  | sink {op : EventSink.Op}
      (hsink : system.world.eventSink.step op = some next.world.eventSink) :
      SinkChange config system next (.sink op)

theorem sinkChange_of_step {system next : System} {label : Label}
    (hstep : step config system label = some next) : SinkChange config system next label := by
  rcases step_cases hstep with
    ⟨call, answers, current, after, rfl, hcurrent, hcall, hcalls⟩ | ⟨launched, hchange, _⟩
  · rcases Call.step_cases hcall with
      ⟨id, attach, state, started, rfl, hstarted, rfl, hworld⟩ | ⟨id, state, rfl, _, rfl, hworld⟩ |
      ⟨nameSpace, podName, rfl, _, hworld⟩ | ⟨nameSpace, podName, rfl, _, hworld⟩
    · rcases startStep_cases hstarted with ⟨rfl, _, _, hsink, _⟩ | ⟨_, hsink, _⟩
      · exact .addFilter hcurrent (hworld ▸ hsink)
      · exact .same (hworld ▸ hsink)
    · rcases collectStep_eventSink config id answers system.world state with
        hsame | hremoved | ⟨found, source, rest, batch, rfl, hloaded⟩
      · exact .same (hworld ▸ hsame)
      · exact .removeFilter _ (hworld ▸ hremoved)
      · exact .load hcurrent hcalls (hworld ▸ hloaded)
    · obtain ⟨profiles, heq⟩ := finalizeProfile_eq config answers system.world nameSpace podName
      exact .same (by rw [hworld, heq])
    · obtain ⟨profiles, heq⟩ := deleteProfile_eq config answers system.world nameSpace podName
      exact .same (by rw [hworld, heq])
  · generalize hworld : next.world = world at hchange
    cases hchange with
    | stopped id =>
        rcases (containerStopped_untracks system.world id).2.2.2 with hsame | hremoved
        · exact .same (hworld ▸ hsame)
        · exact .removeFilter _ (hworld ▸ hremoved)
    | sink hsink => exact .sink (by rw [hworld]; exact hsink)
    | _ => exact .same (by rw [hworld])

theorem step_advance {system next : System} {call : Nat} {answers : Answers}
    (hstep : step config system (.advance call answers) = some next) :
    ∃ current after, system.calls[call]? = some current ∧
      current.step config answers system.world = some (after, next.world) ∧
      next.calls = system.calls.set call after := by
  obtain ⟨current, hcurrent, hmap⟩ := Option.bind_eq_some_iff.mp hstep
  obtain ⟨⟨after, world⟩, hcall, rfl⟩ := Option.map_eq_some_iff.mp hmap
  exact ⟨current, after, hcurrent, hcall, rfl⟩

/-- A step that does not advance the call leaves it as it is. -/
theorem step_keeps_call {system next : System} {label : Label} {place : Nat} {call : Call}
    (hcall : system.calls[place]? = some call) (hother : ∀ answers, label ≠ .advance place answers)
    (hstep : step config system label = some next) : next.calls[place]? = some call := by
  rcases step_cases hstep with
    ⟨advanced, answers, current, after, rfl, _, _, hcalls⟩ | ⟨launched, _, hcalls⟩
  · have hne : advanced ≠ place := by
      rintro rfl
      exact hother answers rfl
    rwa [hcalls, List.getElem?_set_ne hne]
  · rwa [hcalls, List.getElem?_append_left (List.getElem?_eq_some_iff.mp hcall).1]

/-- The step of a pass in the machine is its step. -/
theorem step_pass {system next : System} {call : Nat} {answers : Answers} {state : PassState}
    (hcurrent : system.calls[call]? = some (.collectContainerEvents id state))
    (hstep : step config system (.advance call answers) = some next) :
    next.world = (collectStep config id answers system.world state).2 ∧
      next.calls = system.calls.set call
        (.collectContainerEvents id (collectStep config id answers system.world state).1) ∧
      next.calls[call]? =
        some (.collectContainerEvents id (collectStep config id answers system.world state).1) := by
  obtain ⟨current, after, hcurrent', hcall, hcalls⟩ := step_advance hstep
  obtain rfl := Option.some.inj (hcurrent.symm.trans hcurrent')
  have hbound : call < system.calls.length := (List.getElem?_eq_some_iff.mp hcurrent).1
  rcases Call.step_cases hcall with
    ⟨_, _, _, _, heq, _⟩ | ⟨_, _, heq, _, rfl, hworld⟩ | ⟨_, _, heq, _⟩ |
    ⟨_, _, heq, _⟩ <;> cases heq
  refine ⟨hworld, hcalls, ?_⟩
  rw [hcalls]
  exact List.getElem?_set_self hbound

end Kapprofiler.Collector
