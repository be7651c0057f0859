import Kapprofiler.Collector.Steps

/-! # What tracking a container consists of

Tracking is spread over the containers' map, the tracer, the filters of the sink and
the table of the finalizer, and each call changes them one at a time. The stage of a
call says which of them it has changed and which it has yet to change; a step moves
one call from stage to stage, or is a stop, or leaves all of this alone.
-/

namespace Kapprofiler.Collector

open Tracing Foundation

variable {config : CollectorManagerConfig}

/-! ## Recording -/

namespace Finalizer

/-- `podFinalizerState[key].Recording`, which is false for a pod without an entry. -/
def recordingAt (finalizer : Finalizer) (key : String) : Bool :=
  ((finalizer.podFinalizerState.lookup key).map (·.recording)).getD false

theorem recordingAt_of_some {finalizer : Finalizer} {key : String}
    {state : PodProfileFinalizerState}
    (hstate : finalizer.podFinalizerState.lookup key = some state) :
    finalizer.recordingAt key = state.recording := by
  simp [recordingAt, hstate]

theorem recordingAt_of_none {finalizer : Finalizer} {key : String}
    (hmissing : finalizer.podFinalizerState.lookup key = none) :
    finalizer.recordingAt key = false := by
  simp [recordingAt, hmissing]

theorem recordingAt_setState (finalizer : Finalizer) (key other : String)
    (state : PodProfileFinalizerState) :
    (finalizer.setState key state).recordingAt other =
      if other = key then state.recording else finalizer.recordingAt other := by
  unfold recordingAt setState
  by_cases hother : other = key
  · subst hother
    simp
  · simp [hother, Finmap.lookup_insert_of_ne]

theorem recordingAt_setRecording (finalizer : Finalizer) (name nameSpace key : String) :
    (finalizer.setRecording name nameSpace).recordingAt key =
      if key = generateTableKey name nameSpace then true else finalizer.recordingAt key := by
  unfold setRecording
  split <;> rw [recordingAt_setState]

theorem recordingAt_markPodNotRecording (finalizer : Finalizer)
    (name nameSpace key : String) :
    (finalizer.markPodNotRecording name nameSpace).recordingAt key =
      if key = generateTableKey name nameSpace then false else finalizer.recordingAt key := by
  unfold markPodNotRecording
  split
  next hmissing =>
    split
    next hkey => rw [hkey, recordingAt_of_none hmissing]
    next => rfl
  next => rw [recordingAt_setState]

theorem recordingAt_stopTimer (finalizer : Finalizer) (name nameSpace key : String) :
    (finalizer.stopTimer name nameSpace).recordingAt key = finalizer.recordingAt key := by
  unfold stopTimer
  split
  · rfl
  next state hstate =>
    split
    · rfl
    · have hkept := recordingAt_setState finalizer (generateTableKey name nameSpace) key
        { state with finalizationTimer := none }
      by_cases hkey : key = generateTableKey name nameSpace
      · rw [if_pos hkey] at hkept
        subst hkey
        rw [recordingAt_of_some hstate]
        exact hkept
      · rwa [if_neg hkey] at hkept

theorem recordingAt_startFinalizationTimer {finalizer : Finalizer} {pod : Pod}
    {started : Nat × Finalizer}
    (hstart : finalizer.startFinalizationTimer config pod = some started) (key : String) :
    started.2.recordingAt key = finalizer.recordingAt key := by
  rw [startFinalizationTimer_eq hstart]
  rfl

theorem recordingAt_handlePodAddEvent {finalizer next : Finalizer} {pod : Pod}
    (hadd : finalizer.handlePodAddEvent config pod = some next) (key : String) :
    next.recordingAt key = finalizer.recordingAt key := by
  unfold handlePodAddEvent at hadd
  split at hadd
  next hmissing =>
    cases hadd
    rw [recordingAt_setState]
    split
    next hkey => rw [hkey, recordingAt_of_none hmissing]
    next => rfl
  next =>
    split at hadd
    · obtain ⟨started, hstarted, rfl⟩ := Option.map_eq_some_iff.mp hadd
      exact recordingAt_startFinalizationTimer hstarted key
    · cases hadd
      rfl

theorem recordingAt_handlePodUpdateEvent {finalizer next : Finalizer} {pod : Pod}
    (hupdate : finalizer.handlePodUpdateEvent config pod = some next) (key : String) :
    next.recordingAt key = finalizer.recordingAt key := by
  cases handlePodUpdateEvent_cases hupdate with
  | notRecording | timerRunning => rfl
  | started _ hstate hstart =>
      rw [recordingAt_setState, recordingAt_startFinalizationTimer hstart]
      split
      next hkey => rw [hkey, recordingAt_of_some hstate]
      next => rfl
  | stopped => exact recordingAt_stopTimer ..

end Finalizer

/-! ## The stages of a call -/

/-- How much of the tracking of its container a call has done or undone. -/
inductive Stage
  /-- A start that filters the events and has not begun to trace. -/
  | tracked
  /-- A start that traces and has not returned. -/
  | traced
  /-- A pass that removed the filter. -/
  | unfiltered
  /-- A pass that also ended the tracing. -/
  | untraced
  /-- A pass that also marked the pod as not recorded. -/
  | unmarked
  deriving DecidableEq

def Call.stage : Call → Option (ContainerId × Stage)
  | .containerStarted id _ .fetchMounts | .containerStarted id _ .startTrace =>
      some (id, .tracked)
  | .containerStarted id _ .startTimer | .containerStarted id _ .markRecording
  | .containerStarted id _ .setRecording => some (id, .traced)
  | .collectContainerEvents id (.stopTrace _) => some (id, .unfiltered)
  | .collectContainerEvents id (.markNotRecording _) => some (id, .untraced)
  | .collectContainerEvents id (.untrack _) => some (id, .unmarked)
  | _ => none

namespace System

def stageAt (system : System) (call : Nat) : Option (ContainerId × Stage) :=
  system.calls[call]?.bind Call.stage

/-- Some call for the container is at the stage. -/
def InStage (system : System) (id : ContainerId) (stage : Stage) : Prop :=
  ∃ call, system.stageAt call = some (id, stage)

theorem inStage_iff_mem {system : System} {id : ContainerId} {stage : Stage} :
    system.InStage id stage ↔ ∃ call ∈ system.calls, call.stage = some (id, stage) := by
  constructor
  · rintro ⟨index, hindex⟩
    obtain ⟨call, hcall, hstage⟩ := Option.bind_eq_some_iff.mp hindex
    exact ⟨call, List.mem_of_getElem? hcall, hstage⟩
  · rintro ⟨call, hcall, hstage⟩
    obtain ⟨index, hindex⟩ := List.mem_iff_getElem?.mp hcall
    exact ⟨index, Option.bind_eq_some_iff.mpr ⟨call, hindex, hstage⟩⟩

instance (system : System) (id : ContainerId) (stage : Stage) :
    Decidable (system.InStage id stage) := decidable_of_iff _ inStage_iff_mem.symm

theorem stageAt_set {system next : System} {call : Nat} {current after : Call}
    (hcurrent : system.calls[call]? = some current)
    (hcalls : next.calls = system.calls.set call after) (other : Nat) :
    next.stageAt other = if other = call then after.stage else system.stageAt other := by
  have hbound := (List.getElem?_eq_some_iff.mp hcurrent).1
  unfold stageAt
  rw [hcalls]
  by_cases hother : other = call
  · rw [if_pos hother, hother, List.getElem?_set_self hbound]
    rfl
  · rw [if_neg hother, List.getElem?_set_ne (Ne.symm hother)]

theorem stageAt_append {system next : System} {launched : List Call}
    (hcalls : next.calls = system.calls ++ launched)
    (hlaunched : ∀ call ∈ launched, call.stage = none) (call : Nat) :
    next.stageAt call = system.stageAt call := by
  unfold stageAt
  rw [hcalls]
  by_cases hbound : call < system.calls.length
  · rw [List.getElem?_append_left hbound]
  · have hnone : system.calls[call]? = none := List.getElem?_eq_none (by omega)
    rw [List.getElem?_append_right (by omega), hnone]
    cases hcall : launched[call - system.calls.length]? with
    | none => rfl
    | some added => exact hlaunched added (List.mem_of_getElem? hcall)

/-- A system in which no call is in progress. -/
def Quiescent (system : System) : Prop := ∀ call ∈ system.calls, call.running = false

instance : DecidablePred Quiescent := fun system =>
  inferInstanceAs (Decidable (∀ call ∈ system.calls, call.running = false))

theorem Quiescent.stageAt {system : System} (hquiet : system.Quiescent) (call : Nat) :
    system.stageAt call = none := by
  unfold System.stageAt
  cases hcall : system.calls[call]? with
  | none => rfl
  | some current =>
      have hreturned := hquiet current (List.mem_of_getElem? hcall)
      cases current with
      | containerStarted id attach state => cases state <;> simp_all [Call.running, Call.stage]
      | collectContainerEvents id state => cases state <;> simp_all [Call.running, Call.stage]
      | finalizeProfile => rfl
      | deleteProfile => rfl

theorem Quiescent.not_inStage {system : System} (hquiet : system.Quiescent) (id : ContainerId)
    (stage : Stage) : ¬ system.InStage id stage := by
  intro ⟨call, hcall⟩
  rw [hquiet.stageAt] at hcall
  cases hcall

end System

theorem Initial.quiescent {system : System} (hinit : Initial system) : system.Quiescent := by
  obtain ⟨_, _, _, _, hcalls⟩ := hinit
  intro call hcall
  rw [hcalls] at hcall
  cases hcall

/-! ## What a step can do to the tracking -/

/-- The parts of the world that tracking a container involves. -/
structure World.Same (world next : World) : Prop where
  containers : next.containers = world.containers
  tracer : next.tracer = world.tracer
  eventFilters : next.eventSink.eventFilters = world.eventSink.eventFilters
  recording : ∀ key, next.finalizer.recordingAt key = world.finalizer.recordingAt key

theorem World.Same.refl (world : World) : world.Same world := ⟨rfl, rfl, rfl, fun _ => rfl⟩

/-- The call goes on to the stage, and no other call moves. -/
def System.Steps (system next : System) (call : Nat) (stage : Option (ContainerId × Stage)) :
    Prop :=
  ∀ other, next.stageAt other = if other = call then stage else system.stageAt other

/-- The start does not mark its pod: nothing is finalized, or the pod is not found. -/
def GivesUp (config : CollectorManagerConfig) (system : System) (call : Nat)
    (answers : Answers) (id : ContainerId) : Prop :=
  ¬ (0 < config.finalizeTime ∧ config.interval < config.finalizeTime) ∨
    system.calls[call]? = some (.containerStarted id true .markRecording) ∧
      answers.cluster.pods id.nameSpace id.podName = none

inductive Moves (config : CollectorManagerConfig) (system next : System) : Label → Prop
  | idle {label : Label} (hworld : system.world.Same next.world)
      (hstages : ∀ call, next.stageAt call = system.stageAt call) : Moves config system next label
  | track {call : Nat} {answers : Answers} (id : ContainerId) (attach : Bool)
      (hcall : system.calls[call]? = some (.containerStarted id attach .track))
      (hsteps : system.Steps next call (some (id, .tracked)))
      (hworld : next.world =
        World.addFilter { system.world with
          containers := system.world.containers.insert id ⟨true, attach⟩ } id) :
      Moves config system next (.advance call answers)
  | trace {call : Nat} {answers : Answers} (id : ContainerId)
      (hstage : system.stageAt call = some (id, .tracked))
      (hsteps : system.Steps next call (some (id, .traced)))
      (hworld : next.world = system.world.startTraceContainer id) :
      Moves config system next (.advance call answers)
  | giveUp {call : Nat} {answers : Answers} (id : ContainerId)
      (hstage : system.stageAt call = some (id, .traced))
      (hgivesUp : GivesUp config system call answers id)
      (hsteps : system.Steps next call none)
      (hworld : system.world.Same next.world) : Moves config system next (.advance call answers)
  | record {call : Nat} {answers : Answers} (id : ContainerId)
      (hstage : system.stageAt call = some (id, .traced))
      (hsteps : system.Steps next call none)
      (hworld : next.world = { system.world with
        finalizer := system.world.finalizer.setRecording id.podName id.nameSpace }) :
      Moves config system next (.advance call answers)
  | stop (id : ContainerId) (htracked : id ∈ system.world.containers)
      (hstages : ∀ call, next.stageAt call = system.stageAt call)
      (hworld : World.Same
        ((((system.world.markPodNotRecording id).stopTraceContainer id).removeFilter id).untrack id)
        next.world) : Moves config system next (.containerStopped id)
  | unfilter {call : Nat} {answers : Answers} (id : ContainerId) (exit : PassExit)
      (hcall : system.calls[call]? = some (.collectContainerEvents id (.removeFilter exit)))
      (hsteps : system.Steps next call (some (id, .unfiltered)))
      (hworld : next.world = system.world.removeFilter id) :
      Moves config system next (.advance call answers)
  | untrace {call : Nat} {answers : Answers} (id : ContainerId) (exit : PassExit)
      (hcall : system.calls[call]? = some (.collectContainerEvents id (.stopTrace exit)))
      (hsteps : system.Steps next call (some (id, .untraced)))
      (hworld : next.world = system.world.stopTraceContainer id) :
      Moves config system next (.advance call answers)
  | unmark {call : Nat} {answers : Answers} (id : ContainerId) (exit : PassExit)
      (hcall : system.calls[call]? = some (.collectContainerEvents id (.markNotRecording exit)))
      (hsteps : system.Steps next call (some (id, .unmarked)))
      (hworld : next.world = system.world.markPodNotRecording id) :
      Moves config system next (.advance call answers)
  | untrack {call : Nat} {answers : Answers} (id : ContainerId)
      (hstage : system.stageAt call = some (id, .unmarked))
      (hsteps : system.Steps next call none)
      (hworld : next.world = system.world.untrack id) :
      Moves config system next (.advance call answers)

theorem System.Steps.inStage {system next : System} {call : Nat}
    {moved : Option (ContainerId × Stage)} {id : ContainerId} {stage : Stage}
    (hsteps : system.Steps next call moved) (hnext : next.InStage id stage) :
    moved = some (id, stage) ∨ system.InStage id stage := by
  obtain ⟨other, hother⟩ := hnext
  rw [hsteps other] at hother
  split at hother
  · exact .inl hother
  · exact .inr ⟨other, hother⟩

theorem System.Steps.inStage_next {system next : System} {call : Nat}
    {moved : Option (ContainerId × Stage)} {id : ContainerId} {stage : Stage}
    (hsteps : system.Steps next call moved) (hstage : system.InStage id stage) :
    system.stageAt call = some (id, stage) ∨ next.InStage id stage := by
  obtain ⟨other, hother⟩ := hstage
  by_cases hcall : other = call
  · exact .inl (hcall ▸ hother)
  · refine .inr ⟨other, ?_⟩
    rw [hsteps other, if_neg hcall, hother]

/-- Only the container of the call that moved can be at another stage than before. -/
theorem System.inStage_iff_of_ne {system next : System} {call : Nat} {id : ContainerId}
    {moved was : Option (ContainerId × Stage)} (hsteps : system.Steps next call moved)
    (hwas : system.stageAt call = was) {stage : Stage} (hmoved : moved ≠ some (id, stage))
    (hbefore : was ≠ some (id, stage)) : next.InStage id stage ↔ system.InStage id stage := by
  constructor
  · intro hnext
    exact (hsteps.inStage hnext).resolve_left hmoved
  · intro hstage
    exact (hsteps.inStage_next hstage).resolve_left fun heq => hbefore (hwas ▸ heq)

theorem System.inStage_congr {system next : System}
    (hstages : ∀ call, next.stageAt call = system.stageAt call) (id : ContainerId)
    (stage : Stage) : next.InStage id stage ↔ system.InStage id stage := by
  simp only [System.InStage, hstages]

theorem System.Steps.same {system next : System} {call : Nat}
    {stage : Option (ContainerId × Stage)} (hsteps : system.Steps next call stage)
    (hstage : system.stageAt call = stage) (other : Nat) :
    next.stageAt other = system.stageAt other := by
  rw [hsteps other]
  split
  next hother => rw [hother, hstage]
  next => rfl

/-- A step of a start. -/
theorem moves_start {system next : System} {call : Nat} {answers : Answers} {id : ContainerId}
    {attach : Bool} {state : StartState} {started : StartState × World}
    (hcurrent : system.calls[call]? = some (.containerStarted id attach state))
    (hstart : startStep config id attach answers system.world state = some started)
    (hcalls : next.calls = system.calls.set call (.containerStarted id attach started.1))
    (hworld : next.world = started.2) : Moves config system next (.advance call answers) := by
  have hsteps : system.Steps next call _ := System.stageAt_set hcurrent hcalls
  have hstage : system.stageAt call = Call.stage _ := congrArg (·.bind Call.stage) hcurrent
  cases startStep_change hstart with
  | recorded | notRecorded => exact .idle (hworld ▸ .refl _) (hsteps.same hstage)
  | track => exact .track id attach hcurrent hsteps hworld
  | mounts => exact .idle (hworld ▸ ⟨rfl, rfl, rfl, fun _ => rfl⟩) (hsteps.same hstage)
  | trace => exact .trace id hstage hsteps hworld
  | timer => exact .idle (hworld ▸ ⟨rfl, rfl, rfl, fun _ => rfl⟩) (hsteps.same hstage)
  | lastTimer hshort =>
      exact .giveUp id hstage (.inl hshort) hsteps (hworld ▸ ⟨rfl, rfl, rfl, fun _ => rfl⟩)
  | podMissing hattach hmissing =>
      subst hattach
      exact .giveUp id hstage (.inr ⟨hcurrent, hmissing⟩) hsteps (hworld ▸ .refl _)
  | finalizationTimer _ _ _ htimer =>
      refine .idle (hworld ▸ ⟨rfl, rfl, rfl, fun key => ?_⟩) (hsteps.same hstage)
      exact Finalizer.recordingAt_startFinalizationTimer htimer key
  | noFinalizationTimer => exact .idle (hworld ▸ .refl _) (hsteps.same hstage)
  | record => exact .record id hstage hsteps hworld

theorem eventFilters_loadEvents (id : ContainerId) (peek : Except String (List String))
    (totalEvents : TotalEvents) (sink : EventSink) (source : EventSource) :
    (loadEvents id peek totalEvents sink source).2.eventFilters = sink.eventFilters := by
  cases source <;> rfl

/-- Where a pass is not about to give its container up, its next step is not either. -/
theorem stage_collectStep {id : ContainerId} {answers : Answers} {world : World}
    {state : PassState} (hstate : ∀ exit, state ≠ .removeFilter exit)
    (hstage : (Call.collectContainerEvents id state).stage = none) :
    (Call.collectContainerEvents id (collectStep config id answers world state).1).stage =
      none := by
  cases state with
  | lookup => simp only [collectStep]; split <;> rfl
  | load found remaining totalEvents =>
      cases remaining with
      | nil => simp only [collectStep]; split <;> rfl
      | cons source rest => rfl
  | get found containerProfile =>
      simp only [collectStep]
      split
      · rfl
      · split
        · rfl
        · split <;> rfl
  | create found containerProfile => simp only [collectStep]; split <;> rfl
  | limitPatch found containerProfile existing => simp only [collectStep]; split <;> rfl
  | update found containerProfile existing => simp only [collectStep]; split <;> rfl
  | removeFilter exit => exact absurd rfl (hstate exit)
  | stopTrace exit => cases hstage
  | markNotRecording exit => cases hstage
  | untrack exit => cases hstage
  | failedPatch => simp only [collectStep]; split <;> rfl
  | restartTimer exit => rfl
  | returned exit => rfl

/-- A step of a pass. -/
theorem moves_pass {system next : System} {call : Nat} {answers : Answers} {id : ContainerId}
    {state : PassState}
    (hcurrent : system.calls[call]? = some (.collectContainerEvents id state))
    (hcalls : next.calls = system.calls.set call
      (.collectContainerEvents id (collectStep config id answers system.world state).1))
    (hworld : next.world = (collectStep config id answers system.world state).2) :
    Moves config system next (.advance call answers) := by
  have hsteps : system.Steps next call _ := System.stageAt_set hcurrent hcalls
  have hstage : system.stageAt call = Call.stage _ := congrArg (·.bind Call.stage) hcurrent
  have hidle : (∀ exit, state ≠ .removeFilter exit) →
      (Call.collectContainerEvents id state).stage = none →
      Moves config system next (.advance call answers) := by
    intro hstate hnone
    rw [stage_collectStep hstate hnone] at hsteps
    refine .idle ?_ (hsteps.same (hstage.trans hnone))
    rw [hworld]
    have hchange := collectStep_change config id answers system.world state
    generalize (collectStep config id answers system.world state).2 = after at hchange ⊢
    cases hchange with
    | @load _ source _ totalEvents =>
        exact ⟨rfl, rfl, eventFilters_loadEvents .., fun _ => rfl⟩
    | removeFilter => exact absurd rfl (hstate _)
    | stopTrace | markNotRecording | untrack => cases hnone
    | _ => exact ⟨rfl, rfl, rfl, fun _ => rfl⟩
  cases state with
  | removeFilter exit => exact .unfilter id exit hcurrent hsteps hworld
  | stopTrace exit => exact .untrace id exit hcurrent hsteps hworld
  | markNotRecording exit => exact .unmark id exit hcurrent hsteps hworld
  | untrack exit =>
      refine .untrack id hstage ?_ hworld
      intro other
      rw [hsteps other]
      cases exit <;> rfl
  | _ => exact hidle (fun _ h => nomatch h) rfl

/-- A stop. -/
theorem moves_stop {system next : System} {id : ContainerId}
    (hstages : ∀ call, next.stageAt call = system.stageAt call)
    (hworld : next.world = containerStopped system.world id) :
    Moves config system next (.containerStopped id) := by
  by_cases htracked : id ∈ system.world.containers
  · refine .stop id htracked hstages ?_
    rw [hworld, containerStopped, if_pos htracked]
    obtain ⟨cache, heq⟩ := dropPodMounts_eq ((((system.world.markPodNotRecording
      id).stopTraceContainer id).removeFilter id).untrack id) id
    rw [heq]
    exact ⟨rfl, rfl, rfl, fun _ => rfl⟩
  · refine .idle ?_ hstages
    rw [hworld, containerStopped, if_neg htracked]
    exact .refl _

/-- Every step moves the tracking in one of these ways. -/
theorem moves_of_step {system next : System} {label : Label}
    (hstep : step config system label = some next) : Moves config system next label := by
  cases label with
  | containerStarted id attach =>
      cases hstep
      refine .idle (.refl _) (System.stageAt_append rfl ?_)
      simp [Call.stage]
  | containerStopped id =>
      cases hstep
      refine moves_stop (System.stageAt_append rfl ?_) rfl
      simp [Call.stage]
  | timerExpired id =>
      simp only [step] at hstep
      split at hstep <;> cases hstep
      refine .idle ⟨rfl, rfl, rfl, fun _ => rfl⟩ (System.stageAt_append rfl ?_)
      simp [Call.stage]
  | advance call answers =>
      obtain ⟨current, after, hcurrent, hcall, hcalls⟩ := step_advance hstep
      rcases Call.step_cases hcall with
        ⟨id, attach, state, started, rfl, hstart, rfl, hworld⟩ |
        ⟨id, state, rfl, _, rfl, hworld⟩ | ⟨nameSpace, podName, rfl, rfl, hworld⟩ |
        ⟨nameSpace, podName, rfl, rfl, hworld⟩
      · exact moves_start hcurrent hstart hcalls hworld
      · exact moves_pass hcurrent hcalls hworld
      · have hsteps : system.Steps next call none := System.stageAt_set hcurrent hcalls
        refine .idle ?_ (hsteps.same (congrArg (·.bind Call.stage) hcurrent))
        obtain ⟨profiles, heq⟩ :=
          finalizeProfile_eq config answers system.world nameSpace podName
        rw [hworld, heq]
        exact ⟨rfl, rfl, rfl, fun _ => rfl⟩
      · have hsteps : system.Steps next call none := System.stageAt_set hcurrent hcalls
        refine .idle ?_ (hsteps.same (congrArg (·.bind Call.stage) hcurrent))
        obtain ⟨profiles, heq⟩ := deleteProfile_eq config answers system.world nameSpace podName
        rw [hworld, heq]
        exact ⟨rfl, rfl, rfl, fun _ => rfl⟩
  | sink op =>
      obtain ⟨sink, hsink, rfl⟩ := Option.map_eq_some_iff.mp hstep
      exact .idle ⟨rfl, rfl, (EventSink.step_filters hsink).2, fun _ => rfl⟩ fun _ => rfl
  | podAdded pod =>
      obtain ⟨finalizer, hadd, rfl⟩ := Option.map_eq_some_iff.mp hstep
      exact .idle ⟨rfl, rfl, rfl, Finalizer.recordingAt_handlePodAddEvent hadd⟩ fun _ => rfl
  | podUpdated pod =>
      obtain ⟨finalizer, hupdate, rfl⟩ := Option.map_eq_some_iff.mp hstep
      exact .idle ⟨rfl, rfl, rfl, Finalizer.recordingAt_handlePodUpdateEvent hupdate⟩ fun _ => rfl
  | podDeleted pod =>
      cases hstep
      refine .idle ⟨rfl, rfl, rfl, Finalizer.recordingAt_stopTimer _ _ _⟩
        (System.stageAt_append rfl ?_)
      simp [Call.stage]
  | finalizationTimerExpired timer =>
      obtain ⟨pod, _, rfl⟩ := Option.map_eq_some_iff.mp hstep
      refine .idle ⟨rfl, rfl, rfl, fun _ => rfl⟩ (System.stageAt_append rfl ?_)
      simp [Call.stage]
  | finalizeApplicationProfile id =>
      simp only [step] at hstep
      split at hstep <;> cases hstep
      · refine .idle (.refl _) (System.stageAt_append rfl ?_)
        simp [Call.stage]
      · exact .idle (.refl _) fun _ => rfl

end Kapprofiler.Collector
