import Kapprofiler.Collector.Locks
import Kapprofiler.Collector.Steps

/-! # The locked sections of the manager

The machine of the manager takes one locked section at a time. Here each of its
steps is a run of its own goroutines, from all mutexes free to all mutexes free,
that writes every shared field the step changes.
-/

namespace Kapprofiler.Collector.Locks

open Foundation Tracing

/-- What is left of a start at each of its points. -/
def ofStart : StartState → Program
  | .checkProfile => containerStarted
  | .track => atTrack
  | .fetchMounts => atFetchMounts
  | .startTrace => atStartTrace
  | .startTimer => atStartTimer
  | .markRecording => atMarkRecording
  | .setRecording => setRecording .done
  | .returned => .done

def ofPass : PassState → Program
  | .lookup => collectContainerEvents
  | .load _ remaining _ => atLoad remaining
  | .get _ _ => atGet
  | .create _ _ => .done
  | .limitPatch _ _ _ => atUpdate
  | .update _ _ _ => atUpdate
  | .removeFilter _ => atRemoveFilter
  | .stopTrace _ => atStopTrace
  | .markNotRecording _ => atMarkNotRecording
  | .untrack _ => atUntrack
  | .failedPatch => .done
  | .restartTimer _ => .done
  | .returned _ => .done

/-- The last two kinds of calls make requests and lock nothing. -/
def ofCall : Call → Program
  | .containerStarted _ _ state => ofStart state
  | .collectContainerEvents _ state => ofPass state
  | .finalizeProfile _ _ _ => .done
  | .deleteProfile _ _ _ => .done

/-- The part of the world that is behind a field. The manager is that of a tracer that runs, with
its sink and its listener. -/
def Field.Same (world next : World) : Field → Prop
  | .containers => next.containers = world.containers
  | .podMountCache => next.podMountCache = world.podMountCache
  | .podFinalizerState => next.finalizer.podFinalizerState = world.finalizer.podFinalizerState
  | .eventFilters => next.eventSink.eventFilters = world.eventSink.eventFilters
  | .running | .cCollection | .tracingState | .eventSinks | .containerActivityListener => True
  | .usageReferenceCount => next.tracer.tracingState = world.tracer.tracingState
  | .m .execveEventType => next.eventSink.execve.db = world.eventSink.execve.db
  | .m .openEventType => next.eventSink.opens.db = world.eventSink.opens.db
  | .m .capabilitiesEventType => next.eventSink.capabilities.db = world.eventSink.capabilities.db
  | .m .dnsEventType => next.eventSink.dns.db = world.eventSink.dns.db
  | .m .networkEventType => next.eventSink.network.db = world.eventSink.network.db
  | .m _ => True

theorem Field.same_refl (world : World) (field : Field) : field.Same world world := by
  cases field with
  | m eventType => cases eventType <;> trivial
  | _ => trivial

/-- A step that moves no event changes the fields that it writes. -/
theorem Field.same_of_sections {world next : World} {fields : List Field}
    (hcontainers : .containers ∈ fields ∨ next.containers = world.containers)
    (hmounts : .podMountCache ∈ fields ∨ next.podMountCache = world.podMountCache)
    (hstates : .podFinalizerState ∈ fields ∨
      next.finalizer.podFinalizerState = world.finalizer.podFinalizerState)
    (htracer : .usageReferenceCount ∈ fields ∨ next.tracer = world.tracer)
    (hsink : ∃ filters, next.eventSink = { world.eventSink with eventFilters := filters } ∧
      (.eventFilters ∈ fields ∨ filters = world.eventSink.eventFilters)) :
    ∀ field : Field, field ∉ fields → field.Same world next := by
  obtain ⟨filters, hsink, hfilters⟩ := hsink
  intro field hfield
  cases field with
  | containers => exact hcontainers.resolve_left hfield
  | podMountCache => exact hmounts.resolve_left hfield
  | podFinalizerState => exact hstates.resolve_left hfield
  | usageReferenceCount => exact congrArg (·.tracingState) (htracer.resolve_left hfield)
  | eventFilters =>
      rw [Field.Same, hsink]
      exact hfilters.resolve_left hfield
  | m eventType => cases eventType <;> first | trivial | rw [Field.Same, hsink]
  | _ => trivial

/-- With all mutexes free, a thread can go from one program to another, writing `fields`. -/
def Goes (program : Program) (fields : List Field) (after : Program) : Prop :=
  ∃ choices, program.alone ∅ choices = some (after, ∅) ∧ program.written choices = fields

/-- From `program` to `after`, writing what the step from `world` to `next` changes. -/
def Covers (world next : World) (program after : Program) : Prop :=
  ∃ fields, Goes program fields after ∧ ∀ field : Field, field ∉ fields → field.Same world next

theorem covers_of_same {world next : World} {program after : Program} (choices : List Bool)
    (halone : program.alone ∅ choices = some (after, ∅))
    (hsame : ∀ field : Field, field.Same world next) : Covers world next program after :=
  ⟨_, ⟨choices, halone, rfl⟩, fun field _ => hsame field⟩

variable {config : CollectorManagerConfig} {id : ContainerId} {answers : Answers} {world : World}

/-- The stored profiles and the container timers are behind no mutex. -/
theorem same_profiles (profiles : ProfileStore) (field : Field) :
    field.Same world { world with profiles := profiles } :=
  Field.same_of_sections (.inr rfl) (.inr rfl) (.inr rfl) (.inr rfl) ⟨_, rfl, .inr rfl⟩ field
    List.not_mem_nil

theorem same_timers (timers : Multiset ContainerId) (field : Field) :
    field.Same world { world with timers := timers } :=
  Field.same_of_sections (.inr rfl) (.inr rfl) (.inr rfl) (.inr rfl) ⟨_, rfl, .inr rfl⟩ field
    List.not_mem_nil

/-- Timers and ready pods are behind no mutex, unless a state is changed with them. -/
theorem same_finalizer (finalizer : Finalizer)
    (hstates : finalizer.podFinalizerState = world.finalizer.podFinalizerState) (field : Field) :
    field.Same world { world with finalizer := finalizer } := by
  have hsame : ∀ field : Field, field ∉ [] →
      field.Same world { world with finalizer := finalizer } :=
    Field.same_of_sections (.inr rfl) (.inr rfl) (.inr hstates) (.inr rfl) ⟨_, rfl, .inr rfl⟩
  exact hsame field List.not_mem_nil

/-! ## The steps of a start -/

theorem startStep_covers {attach : Bool} {state : StartState} {next : StartState × World}
    (hstep : startStep config id attach answers world state = some next) :
    Covers world next.2 (ofStart state) (ofStart next.1) := by
  cases startStep_change hstep with
  | recorded => exact covers_of_same [false] rfl (Field.same_refl world)
  | notRecorded => exact covers_of_same [true] rfl (Field.same_refl world)
  | track =>
      obtain ⟨filters, hfilters⟩ :=
        world.eventSink.addFilter_eq ⟨.allEventType, id.containerID⟩
      refine ⟨[.containers, .eventFilters],
        ⟨[false, false, false, true, false, false], rfl, rfl⟩, ?_⟩
      exact Field.same_of_sections (.inl (by simp)) (.inr rfl) (.inr rfl) (.inr rfl)
        ⟨filters, hfilters, .inl (by simp)⟩
  | mounts podMountCache =>
      refine ⟨[.podMountCache], ⟨[false, false, true, false, false], rfl, rfl⟩, ?_⟩
      exact Field.same_of_sections (.inr rfl) (.inl (by simp)) (.inr rfl) (.inr rfl)
        ⟨_, rfl, .inr rfl⟩
  -- One section for each of the five traced event types that counts the container.
  | trace =>
      refine ⟨List.replicate 5 .usageReferenceCount,
        ⟨false :: true :: List.replicate 30 false, rfl, rfl⟩, ?_⟩
      exact Field.same_of_sections (.inr rfl) (.inr rfl) (.inr rfl) (.inl (by simp))
        ⟨_, rfl, .inr rfl⟩
  | timer => exact covers_of_same [true] rfl (Field.same_refl world)
  | lastTimer => exact covers_of_same [false] rfl (Field.same_refl world)
  | podMissing => exact covers_of_same [false] rfl (Field.same_refl world)
  | finalizationTimer hattach hpod hready hstart =>
      have hstates := congrArg (·.podFinalizerState) (Finalizer.startFinalizationTimer_eq hstart)
      exact covers_of_same [true] rfl (same_finalizer _ hstates)
  | noFinalizationTimer => exact covers_of_same [true] rfl (Field.same_refl world)
  | record =>
      refine ⟨[.podFinalizerState], ⟨[false, false, false], rfl, rfl⟩, ?_⟩
      exact Field.same_of_sections (.inr rfl) (.inr rfl) (.inl (by simp)) (.inr rfl)
        ⟨_, rfl, .inr rfl⟩

/-! ## The steps of a pass -/

section Pass

/-- A drained bucket is written under the mutex of its database. -/
theorem load_covers (source : EventSource) (rest : List EventSource) (totalEvents : TotalEvents)
    (peek : Except String (List String)) :
    Covers world { world with
      eventSink := (loadEvents id peek totalEvents world.eventSink source).2 }
      (atLoad (source :: rest)) (atLoad rest) := by
  have hdrain (eventType : EventType) (next : Program) :
      Goes (getNClean next eventType) [.m eventType] next := by
    refine ⟨[false, false, true, false, false], ?_, ?_⟩
    · simp [getNClean, Locking.alone, Locking.step]
    · simp [getNClean, Locking.written]
  cases source with
  | syscalls => exact covers_of_same [false, false] rfl (Field.same_refl world)
  | _ =>
      refine ⟨_, hdrain _ (atLoad rest), ?_⟩
      intro field hfield
      cases field with
      | m eventType => cases eventType <;> trivial
      | _ => trivial

theorem collectStep_covers (state : PassState) :
    Covers world (collectStep config id answers world state).2 (ofPass state)
      (ofPass (collectStep config id answers world state).1) := by
  cases state with
  | lookup =>
      simp only [collectStep]
      split
      · exact covers_of_same [false, false, false, false] rfl (Field.same_refl world)
      · exact covers_of_same [false, false, true, false] rfl (Field.same_refl world)
  | load found remaining totalEvents =>
      cases remaining with
      | cons source rest => exact load_covers source rest totalEvents answers.peek
      | nil =>
          simp only [collectStep]
          split
          · exact covers_of_same [true, false, false, false] rfl (Field.same_refl world)
          · exact covers_of_same [false] rfl (Field.same_refl world)
  | get found containerProfile =>
      simp only [collectStep]
      split
      · exact covers_of_same [false] rfl (Field.same_refl world)
      · split
        · exact covers_of_same [true, false] rfl (Field.same_refl world)
        · split
          · exact covers_of_same [true, true] rfl (Field.same_refl world)
          · exact covers_of_same [true, true] rfl (Field.same_refl world)
  | create found containerProfile =>
      simp only [collectStep]
      split
      · exact covers_of_same [] rfl (same_profiles _)
      · exact covers_of_same [] rfl (Field.same_refl world)
  | limitPatch found containerProfile existing =>
      simp only [collectStep]
      split
      · exact covers_of_same [] rfl (same_profiles _)
      · exact covers_of_same [] rfl (Field.same_refl world)
  | update found containerProfile existing =>
      simp only [collectStep]
      split
      · exact covers_of_same [true, false] rfl (same_profiles _)
      · exact covers_of_same [true, true] rfl (Field.same_refl world)
  | removeFilter exit =>
      refine ⟨[.eventFilters], ⟨[false, true, false], rfl, rfl⟩, ?_⟩
      exact Field.same_of_sections (.inr rfl) (.inr rfl) (.inr rfl) (.inr rfl)
        ⟨_, rfl, .inl (by simp)⟩
  | stopTrace exit =>
      refine ⟨List.replicate 5 .usageReferenceCount,
        ⟨false :: true :: false ::
          (List.replicate 5 [false, false, false, true, false]).flatten ++ [false], rfl, rfl⟩, ?_⟩
      exact Field.same_of_sections (.inr rfl) (.inr rfl) (.inr rfl) (.inl (by simp))
        ⟨_, rfl, .inr rfl⟩
  | markNotRecording exit =>
      refine ⟨[.podFinalizerState], ⟨[false, false, true, false, false], rfl, rfl⟩, ?_⟩
      exact Field.same_of_sections (.inr rfl) (.inr rfl) (.inl (by simp)) (.inr rfl)
        ⟨_, rfl, .inr rfl⟩
  | untrack exit =>
      -- Both ways of going on take no lock any more.
      have hafter : ofPass (if exit = .final then .returned exit else .failedPatch) = .done := by
        split <;> rfl
      refine ⟨[.containers], ⟨[false, false, false], ?_, rfl⟩, ?_⟩
      · simp only [collectStep]
        rw [hafter]
        rfl
      · exact Field.same_of_sections (.inl (by simp)) (.inr rfl) (.inr rfl) (.inr rfl)
          ⟨_, rfl, .inr rfl⟩
  | failedPatch =>
      simp only [collectStep]
      split
      · exact covers_of_same [] rfl (same_profiles _)
      · exact covers_of_same [] rfl (Field.same_refl world)
  | restartTimer exit =>
      exact covers_of_same [] rfl (same_timers _)
  | returned exit => exact covers_of_same [] rfl (Field.same_refl world)

end Pass

theorem Call.step_covers {call after : Collector.Call} {next : World}
    (hstep : call.step config answers world = some (after, next)) :
    Covers world next (ofCall call) (ofCall after) := by
  rcases Collector.Call.step_cases hstep with ⟨id, attach, state, started, rfl, hstart, rfl, rfl⟩ |
    ⟨id, state, rfl, -, rfl, rfl⟩ | ⟨nameSpace, podName, rfl, rfl, rfl⟩ |
    ⟨nameSpace, podName, rfl, rfl, rfl⟩
  · exact startStep_covers hstart
  · exact collectStep_covers state
  · obtain ⟨profiles, heq⟩ := finalizeProfile_eq config answers world nameSpace podName
    rw [heq]
    exact covers_of_same [] rfl (same_profiles profiles)
  · obtain ⟨profiles, heq⟩ := deleteProfile_eq config answers world nameSpace podName
    rw [heq]
    exact covers_of_same [] rfl (same_profiles profiles)

/-! ## The steps without a call

Each is one goroutine, from its beginning to its end. -/

theorem containerStopped_covers (world : World) (id : ContainerId) :
    Covers world (Collector.containerStopped world id) containerStopped .done := by
  refine ⟨_, ⟨[false, false, true, false] ++ [false, false, true, false, false] ++
    false :: true :: false :: (List.replicate 5 [false, false, false, true, false]).flatten ++
    [false] ++ [false, true, false] ++ [false, true, false, false, false, false], rfl, rfl⟩, ?_⟩
  have hsink := (containerStopped_untracks world id).2.2.2
  exact Field.same_of_sections (.inl (by decide)) (.inl (by decide)) (.inl (by decide))
    (.inl (by decide)) (by
      rcases hsink with hsink | hsink
      · exact ⟨_, hsink, .inl (by decide)⟩
      · exact ⟨_, hsink, .inl (by decide)⟩)

/-- The goroutine that an operation of the sink is one call of. -/
def ofOp (filterEvents : Bool) : EventSink.Op → Goroutine
  | .execveEventWorker => .eventWorker .execveEventType
  | .openEventWorker => .eventWorker .openEventType
  | .capabilitiesEventWorker => .eventWorker .capabilitiesEventType
  | .dnsEventWorker => .eventWorker .dnsEventType
  | .networkEventWorker => .eventWorker .networkEventType
  | _ => .sendEvent filterEvents

/-- A send changes channels only, a worker the database of its event type. -/
theorem sink_same {op : EventSink.Op} {sink : EventSink} (filterEvents : Bool) (field : Field)
    (hstep : world.eventSink.step op = some sink)
    (hfield : ∀ eventType, ofOp filterEvents op = .eventWorker eventType → field ≠ .m eventType) :
    field.Same world { world with eventSink := sink } := by
  cases op with
  | execveEventWorker | openEventWorker | capabilitiesEventWorker | dnsEventWorker |
    networkEventWorker =>
      obtain ⟨stream, -, rfl⟩ := Option.map_eq_some_iff.mp hstep
      cases field with
      | m eventType => cases eventType <;> first | trivial | exact absurd rfl (hfield _ rfl)
      | _ => trivial
  | _ =>
      simp only [EventSink.step] at hstep
      split at hstep
      · obtain ⟨stream, hsend, rfl⟩ := Option.map_eq_some_iff.mp hstep
        cases field with
        | m eventType => cases eventType <;> first | trivial | exact EventStream.send_db hsend
        | _ => trivial
      · rw [← Option.some.inj hstep]
        exact Field.same_refl world field

theorem sink_covers {op : EventSink.Op} {sink : EventSink}
    (hstep : world.eventSink.step op = some sink) :
    Covers world { world with eventSink := sink }
      (body (ofOp world.eventSink.filterEvents op)) .done := by
  have hsame (field : Field) := sink_same world.eventSink.filterEvents field hstep
  cases hop : ofOp world.eventSink.filterEvents op with
  | eventWorker eventType =>
      refine ⟨[.m eventType], ⟨[false, false, false], ?_, rfl⟩, ?_⟩
      · simp [body, put, Locking.alone, Locking.step]
      · intro field hfield
        apply hsame
        intro other hother
        rw [hop] at hother
        cases hother
        simpa using hfield
  | sendEvent filterEvents =>
      have hunchanged (field : Field) : field.Same world { world with eventSink := sink } := by
        apply hsame
        intro other hother
        rw [hop] at hother
        cases hother
      cases filterEvents with
      | false => exact covers_of_same [] rfl hunchanged
      | true => exact covers_of_same [false] rfl hunchanged
  | _ => cases op <;> cases hop

/-- An event of a pod is one look at its state, which may write it. -/
theorem finalizer_covers {program : Program} (finalizer : Finalizer)
    (hgoes : Goes program [.podFinalizerState] .done) :
    Covers world { world with finalizer := finalizer } program .done :=
  ⟨_, hgoes, Field.same_of_sections (.inr rfl) (.inr rfl) (.inl (by simp)) (.inr rfl)
    ⟨_, rfl, .inr rfl⟩⟩

/-! ## Runs -/

/-- All mutexes are free. Each call of the system has come as far as its goroutine, which is
that of `threads` at the place of the call, and every other goroutine has ended. -/
structure Follows (system : System) (pool : Pool Mutex Field) (threads : List Nat) : Prop where
  free : pool.locked = ∅
  nodup : threads.Nodup
  length : threads.length = system.calls.length
  calls : ∀ (index : Nat) (call : Collector.Call) (thread : Nat), system.calls[index]? = some call →
    threads[index]? = some thread → pool.threads[thread]? = some (ofCall call)
  others : ∀ (thread : Nat) (program : Program), thread ∉ threads →
    pool.threads[thread]? = some program → program = .done

/-- The goroutines that a step launches. A stop launches its pass. -/
def launched (filterEvents : Bool) : Collector.Label → List Goroutine
  | .containerStarted _ _ => [.containerStarted]
  | .containerStopped _ => [.containerStopped, .collectContainerEvents]
  | .timerExpired _ => [.collectContainerEvents]
  | .advance _ _ => []
  | .sink op => [ofOp filterEvents op]
  | .podAdded _ => [.handlePodAddEvent]
  | .podUpdated _ => [.handlePodUpdateEvent]
  | .podDeleted _ => [.handlePodDeleteEvent]
  | .finalizationTimerExpired _ => [.finalizePodProfile]
  | .finalizeApplicationProfile _ => [.finalizeApplicationProfile]

/-- Goroutines one after the other, each with the branches that it takes. The first is the
thread `count`. -/
def turns (count : Nat) : List (Goroutine × List Bool) → List (Pool.Label Goroutine)
  | [] => []
  | (goroutine, choices) :: rest => .call goroutine :: steps count choices ++ turns (count + 1) rest

/-- The goroutines of a step are that of the call that takes it, or those that it launches. -/
def OwnSteps (filterEvents : Bool) (count : Nat) (threads : List Nat) (label : Collector.Label)
    (turn : List (Pool.Label Goroutine)) : Prop :=
  match label with
  | .advance index _ => ∃ thread choices, threads[index]? = some thread ∧
      turn = steps thread choices
  | _ => ∃ choices : List (Goroutine × List Bool),
      choices.map (·.1) = launched filterEvents label ∧ turn = turns count choices

/-- In a step nothing moves but its own goroutines, and they write what it changes. -/
structure Turn (label : Collector.Label) (system next : System) (threads : List Nat)
    (pool after : Pool Mutex Field) (turn : List (Pool.Label Goroutine)) : Prop where
  own : OwnSteps system.world.eventSink.filterEvents pool.threads.length threads label turn
  run : machine.run pool turn = some after
  written : ∀ field : Field, field ∉ machine.trace Pool.writes pool turn →
    field.Same system.world next.world

/-- A call that a step has made is the goroutine that was launched last. -/
def threadsAfter (next : System) (threads : List Nat) (after : Pool Mutex Field) : List Nat :=
  if next.calls.length = threads.length then threads else threads ++ [after.threads.length - 1]

/-- A run of the manager, step by step with the goroutines. -/
inductive Matches (config : CollectorManagerConfig) :
    System → Pool Mutex Field → List Nat → List Collector.Label → System → Prop
  | nil {system : System} {pool : Pool Mutex Field} {threads : List Nat}
      (hfollows : Follows system pool threads) : Matches config system pool threads [] system
  | cons {system next last : System} {pool after : Pool Mutex Field} {threads : List Nat}
      {label : Collector.Label} {rest : List Collector.Label}
      {turn : List (Pool.Label Goroutine)} (hfollows : Follows system pool threads)
      (hstep : Collector.step config system label = some next)
      (hturn : Turn label system next threads pool after turn)
      (hrest : Matches config next after (threadsAfter next threads after) rest last) :
      Matches config system pool threads (label :: rest) last

section Follows

variable {system : System} {pool : Pool Mutex Field} {threads : List Nat}

theorem Follows.thread_lt {thread : Nat} (hfollows : Follows system pool threads)
    (hmem : thread ∈ threads) : thread < pool.threads.length := by
  obtain ⟨index, hlt, hthread⟩ := List.getElem_of_mem hmem
  have hcall := List.getElem?_eq_getElem (hfollows.length ▸ hlt)
  have hindex : threads[index]? = some thread := List.getElem?_eq_some_iff.mpr ⟨hlt, hthread⟩
  have hprogram := hfollows.calls index _ thread hcall hindex
  exact (List.getElem?_eq_some_iff.mp hprogram).1

theorem Follows.threadsAfter_same {next : System} (hfollows : Follows system pool threads)
    (hlength : next.calls.length = system.calls.length) (after : Pool Mutex Field) :
    threadsAfter next threads after = threads :=
  if_pos (hlength.trans hfollows.length.symm)

theorem Follows.threadsAfter_launch (hfollows : Follows system pool threads) (world : World)
    (call : Collector.Call) (locked : Finset Mutex) (others : List Program) (program : Program) :
    threadsAfter (System.launch { system with world := world } call) threads
      ⟨locked, others ++ [program]⟩ = threads ++ [others.length] := by
  have hmore : (System.launch { system with world := world } call).calls.length ≠
      threads.length := by
    change (system.calls ++ [call]).length ≠ threads.length
    rw [List.length_append, hfollows.length, List.length_singleton]
    omega
  rw [threadsAfter, if_neg hmore, List.length_append, List.length_singleton, Nat.add_sub_cancel]

/-- A goroutine that is none of the system's calls runs to its end. -/
theorem Follows.other (hfollows : Follows system pool threads) (world : World) :
    Follows { system with world := world } ⟨∅, pool.threads ++ [.done]⟩ threads where
  free := rfl
  nodup := hfollows.nodup
  length := hfollows.length
  calls index call thread hcall hthread := by
    rw [List.getElem?_append_left (hfollows.thread_lt (List.mem_of_getElem? hthread))]
    exact hfollows.calls index call thread hcall hthread
  others thread program hother hprogram := by
    rcases Pool.getElem?_concat_cases hprogram with hold | ⟨_, hnew⟩
    · exact hfollows.others thread program hother hold
    · exact hnew

/-- The new call gets the new goroutine; the others keep theirs. -/
theorem Follows.launch (hfollows : Follows system pool threads) (world : World)
    (call : Collector.Call) :
    Follows (System.launch { system with world := world } call)
      ⟨∅, pool.threads ++ [ofCall call]⟩ (threads ++ [pool.threads.length]) where
  free := rfl
  nodup := by
    rw [List.nodup_append]
    refine ⟨hfollows.nodup, List.nodup_singleton _, ?_⟩
    rintro thread hmem other hother rfl
    exact absurd (List.mem_singleton.mp hother) (Nat.ne_of_lt (hfollows.thread_lt hmem))
  length := by
    rw [System.launch, List.length_append, List.length_append, hfollows.length]
    rfl
  calls index other thread hother hthread := by
    change (system.calls ++ [call])[index]? = some other at hother
    rcases Pool.getElem?_concat_cases hthread with hold | ⟨rfl, rfl⟩
    · have hlt := (List.getElem?_eq_some_iff.mp hold).1
      rw [List.getElem?_append_left (hfollows.length ▸ hlt)] at hother
      rw [List.getElem?_append_left (hfollows.thread_lt (List.mem_of_getElem? hold))]
      exact hfollows.calls index other thread hother hold
    · rw [hfollows.length, List.getElem?_concat_length] at hother
      obtain rfl := Option.some.inj hother
      exact List.getElem?_concat_length
  others thread program hother hprogram := by
    rw [List.mem_append, not_or] at hother
    rcases Pool.getElem?_concat_cases hprogram with hold | ⟨rfl, _⟩
    · exact hfollows.others thread program hother.1 hold
    · exact absurd (List.mem_singleton_self _) hother.2

/-- The goroutine of a call that takes a step goes with it. -/
theorem Follows.advance {index thread : Nat} {call : Collector.Call}
    (hfollows : Follows system pool threads) (hcall : system.calls[index]? = some call)
    (hthread : threads[index]? = some thread) (world : World) (after : Collector.Call) :
    Follows { world := world, calls := system.calls.set index after }
      ⟨∅, pool.threads.set thread (ofCall after)⟩ threads where
  free := rfl
  nodup := hfollows.nodup
  length := hfollows.length.trans List.length_set.symm
  calls other current thread' hcurrent hthread' := by
    by_cases heq : other = index
    · subst heq
      obtain rfl := Option.some.inj (hthread.symm.trans hthread')
      rw [List.getElem?_set_self (List.getElem?_eq_some_iff.mp hcall).1] at hcurrent
      obtain rfl := Option.some.inj hcurrent
      exact List.getElem?_set_self (hfollows.thread_lt (List.mem_of_getElem? hthread))
    · -- Two calls are never one goroutine.
      have hne : thread ≠ thread' := by
        rintro rfl
        have hlt := (List.getElem?_eq_some_iff.mp hthread').1
        exact heq ((List.getElem?_inj hlt hfollows.nodup).mp (hthread'.trans hthread.symm))
      rw [List.getElem?_set_ne (Ne.symm heq)] at hcurrent
      rw [List.getElem?_set_ne hne]
      exact hfollows.calls other current thread' hcurrent hthread'
  others other program hother hprogram := by
    have hne : thread ≠ other := by
      rintro rfl
      exact hother (List.mem_of_getElem? hthread)
    rw [List.getElem?_set_ne hne] at hprogram
    exact hfollows.others other program hother hprogram

end Follows

section Turns

variable {system : System} {pool : Pool Mutex Field} {threads : List Nat}

/-- A thread that goes on alone, and the fields that it writes. -/
theorem steps_covers {next : World} {thread : Nat} {program after : Program}
    (hfree : pool.locked = ∅) (hthread : pool.threads[thread]? = some program)
    (hcovers : Covers world next program after) :
    ∃ choices, machine.run pool (steps thread choices) =
        some ⟨∅, pool.threads.set thread after⟩ ∧
      ∀ field : Field, field ∉ machine.trace Pool.writes pool (steps thread choices) →
        field.Same world next := by
  obtain ⟨fields, ⟨choices, halone, hwritten⟩, hsame⟩ := hcovers
  rw [← hfree] at halone
  refine ⟨choices, ?_, ?_⟩
  · rw [steps, show machine = Pool.machine body from rfl, Pool.run_alone hthread halone, hfree]
  · intro field hfield
    apply hsame
    rw [← hwritten, ← Pool.trace_alone hthread halone]
    exact hfield

/-- A new goroutine that goes from its body to `after`. -/
theorem turns_covers {next : World} (goroutine : Goroutine) {after : Program}
    (hfree : pool.locked = ∅) (hcovers : Covers world next (body goroutine) after) :
    ∃ choices, machine.run pool (turns pool.threads.length [(goroutine, choices)]) =
        some ⟨∅, pool.threads ++ [after]⟩ ∧
      ∀ field : Field,
        field ∉ machine.trace Pool.writes pool (turns pool.threads.length [(goroutine, choices)]) →
        field.Same world next := by
  let launching : Pool Mutex Field := { pool with threads := pool.threads ++ [body goroutine] }
  have hthread : launching.threads[pool.threads.length]? = some (body goroutine) := by
    simp [launching]
  have hfree : launching.locked = ∅ := hfree
  obtain ⟨choices, hrun, hsame⟩ := steps_covers hfree hthread hcovers
  refine ⟨choices, ?_, ?_⟩
  · rw [turns, turns, List.append_nil]
    refine Machine.run_cons _ |>.mpr ⟨launching, rfl, ?_⟩
    rw [hrun]
    simp [launching]
  · rw [turns, turns, List.append_nil]
    exact hsame

/-- The one goroutine of the step is no call and runs to its end. -/
theorem turn_other {label : Collector.Label} {next : World} (goroutine : Goroutine)
    (hfollows : Follows system pool threads)
    (hown : ∀ choices, OwnSteps system.world.eventSink.filterEvents pool.threads.length threads
      label (turns pool.threads.length [(goroutine, choices)]))
    (hcovers : Covers system.world next (body goroutine) .done) :
    ∃ after turn, Turn label system { system with world := next } threads pool after turn ∧
      Follows { system with world := next } after
        (threadsAfter { system with world := next } threads after) := by
  obtain ⟨choices, hrun, hsame⟩ := turns_covers goroutine hfollows.free hcovers
  refine ⟨_, _, ⟨hown choices, hrun, hsame⟩, ?_⟩
  have hthreads (after : Pool Mutex Field) :
      threadsAfter { system with world := next } threads after = threads :=
    hfollows.threadsAfter_same rfl after
  rw [hthreads]
  exact hfollows.other next

/-- The one goroutine of the step is a call. -/
theorem turn_launch {label : Collector.Label} {next : World} (goroutine : Goroutine)
    (call : Collector.Call) (hfollows : Follows system pool threads)
    (hown : ∀ choices, OwnSteps system.world.eventSink.filterEvents pool.threads.length threads
      label (turns pool.threads.length [(goroutine, choices)]))
    (hcovers : Covers system.world next (body goroutine) (ofCall call)) :
    ∃ after turn,
      Turn label system (System.launch { system with world := next } call) threads pool after turn ∧
      Follows (System.launch { system with world := next } call) after
        (threadsAfter (System.launch { system with world := next } call) threads after) := by
  obtain ⟨choices, hrun, hsame⟩ := turns_covers goroutine hfollows.free hcovers
  refine ⟨_, _, ⟨hown choices, hrun, hsame⟩, ?_⟩
  rw [hfollows.threadsAfter_launch]
  exact hfollows.launch next call

/-- The goroutine of the stop runs to its end first, and then the pass is launched. -/
theorem turn_stop (hfollows : Follows system pool threads) (id : ContainerId) :
    ∃ after turn,
      Turn (.containerStopped id) system (System.launch
        { system with world := Collector.containerStopped system.world id }
        (.collectContainerEvents id .lookup)) threads pool after turn ∧
      Follows (System.launch { system with world := Collector.containerStopped system.world id }
        (.collectContainerEvents id .lookup)) after
        (threadsAfter (System.launch
          { system with world := Collector.containerStopped system.world id }
          (.collectContainerEvents id .lookup)) threads after) := by
  obtain ⟨choices, hrun, hsame⟩ :=
    turns_covers .containerStopped hfollows.free (containerStopped_covers _ id)
  have hstopped := hfollows.other (Collector.containerStopped system.world id)
  let pass : List (Goroutine × List Bool) := [(.containerStopped, choices),
    (.collectContainerEvents, [])]
  have hturns : turns pool.threads.length pass =
      turns pool.threads.length [(.containerStopped, choices)] ++
        [.call .collectContainerEvents] := by
    simp [pass, turns, steps]
  refine ⟨⟨∅, (pool.threads ++ [.done]) ++ [ofCall (.collectContainerEvents id .lookup)]⟩,
    turns pool.threads.length pass, ⟨⟨pass, rfl, rfl⟩, ?_, ?_⟩, ?_⟩
  · rw [hturns, machine.run_append]
    exact ⟨_, hrun, rfl⟩
  · intro field hfield
    apply hsame
    rw [hturns, machine.trace_append hrun, List.mem_append, not_or] at hfield
    exact hfield.1
  · rw [hfollows.threadsAfter_launch]
    exact hstopped.launch _ _

theorem step_matches {label : Collector.Label} {next : System}
    (hfollows : Follows system pool threads)
    (hstep : Collector.step config system label = some next) :
    ∃ after turn, Turn label system next threads pool after turn ∧
      Follows next after (threadsAfter next threads after) := by
  cases label with
  | containerStarted id attach =>
      obtain rfl := Option.some.inj hstep
      exact turn_launch .containerStarted _ hfollows (fun choices => ⟨[(_, choices)], rfl, rfl⟩)
        (covers_of_same [] rfl (Field.same_refl system.world))
  | containerStopped id =>
      obtain rfl := Option.some.inj hstep
      exact turn_stop hfollows id
  | timerExpired id =>
      simp only [Collector.step] at hstep
      split at hstep
      · obtain rfl := Option.some.inj hstep
        exact turn_launch .collectContainerEvents _ hfollows
          (fun choices => ⟨[(_, choices)], rfl, rfl⟩) (covers_of_same [] rfl (same_timers _))
      · cases hstep
  | advance index answers =>
      obtain ⟨call, hcall, hnext⟩ := Option.bind_eq_some_iff.mp hstep
      obtain ⟨⟨after, world⟩, hadvance, rfl⟩ := Option.map_eq_some_iff.mp hnext
      have hlt : index < threads.length :=
        hfollows.length ▸ (List.getElem?_eq_some_iff.mp hcall).1
      have hthread := List.getElem?_eq_getElem hlt
      have hprogram := hfollows.calls index call _ hcall hthread
      obtain ⟨choices, hrun, hsame⟩ :=
        steps_covers hfollows.free hprogram (Call.step_covers hadvance)
      refine ⟨_, _, ⟨⟨_, choices, hthread, rfl⟩, hrun, hsame⟩, ?_⟩
      rw [hfollows.threadsAfter_same List.length_set]
      exact hfollows.advance hcall hthread world after
  | sink op =>
      obtain ⟨sink, hsink, rfl⟩ := Option.map_eq_some_iff.mp hstep
      exact turn_other _ hfollows (fun choices => ⟨[(_, choices)], rfl, rfl⟩) (sink_covers hsink)
  | podAdded pod =>
      obtain ⟨finalizer, -, rfl⟩ := Option.map_eq_some_iff.mp hstep
      exact turn_other .handlePodAddEvent hfollows (fun choices => ⟨[(_, choices)], rfl, rfl⟩)
        (finalizer_covers finalizer ⟨[true, false, false, true, false, false], rfl, rfl⟩)
  | podUpdated pod =>
      obtain ⟨finalizer, -, rfl⟩ := Option.map_eq_some_iff.mp hstep
      exact turn_other .handlePodUpdateEvent hfollows (fun choices => ⟨[(_, choices)], rfl, rfl⟩)
        (finalizer_covers finalizer ⟨[true, false, false, true, false, false, false, false, true,
          false, false], rfl, rfl⟩)
  | podDeleted pod =>
      obtain rfl := Option.some.inj hstep
      exact turn_launch .handlePodDeleteEvent _ hfollows
        (fun choices => ⟨[(_, choices)], rfl, rfl⟩)
        (finalizer_covers _ ⟨[true, false, false, true, false, false], rfl, rfl⟩)
  | finalizationTimerExpired timer =>
      obtain ⟨pod, -, rfl⟩ := Option.map_eq_some_iff.mp hstep
      exact turn_launch .finalizePodProfile _ hfollows (fun choices => ⟨[(_, choices)], rfl, rfl⟩)
        (covers_of_same [] rfl (same_finalizer _ rfl))
  | finalizeApplicationProfile id =>
      have hcovers : Covers system.world system.world (body .finalizeApplicationProfile) .done :=
        covers_of_same [false, false, false] rfl (Field.same_refl system.world)
      simp only [Collector.step] at hstep
      split at hstep
      · obtain rfl := Option.some.inj hstep
        exact turn_launch _ (.finalizeProfile id.nameSpace id.podName false) hfollows
          (fun choices => ⟨[(_, choices)], rfl, rfl⟩) hcovers
      · obtain rfl := Option.some.inj hstep
        exact turn_other _ hfollows (fun choices => ⟨[(_, choices)], rfl, rfl⟩) hcovers

theorem run_matches {start last : System} {labels : List Collector.Label}
    (hfollows : Follows start pool threads)
    (hrun : (Collector.machine config).run start labels = some last) :
    Matches config start pool threads labels last := by
  induction labels generalizing start pool threads with
  | nil =>
      obtain rfl := Option.some.inj hrun
      exact .nil hfollows
  | cons label rest ih =>
      obtain ⟨next, hstep, hrest⟩ := Machine.run_cons _ |>.mp hrun
      obtain ⟨after, turn, hturn, hafter⟩ := step_matches hfollows hstep
      exact .cons hfollows hstep hturn (ih hafter hrest)

end Turns

theorem follows_empty {start : System} (hinitial : Initial start) :
    Follows start Pool.empty [] where
  free := rfl
  nodup := List.nodup_nil
  length := by
    rw [hinitial.2.2.2.2]
    rfl
  calls index call thread _ hthread := by cases hthread
  others thread program _ hprogram := by cases hprogram

/-- Whatever the manager does, its goroutines can do with one locked section after the other:
step by step the one that the step is of moves and no other, with all mutexes free before and
after, and what the step changes it writes. -/
theorem sections_match {start last : System} {labels : List Collector.Label}
    (hinitial : Initial start) (hrun : (Collector.machine config).run start labels = some last) :
    Matches config start Pool.empty [] labels last :=
  run_matches (follows_empty hinitial) hrun

theorem recordingRun_matches : ∃ last,
    (Collector.machine mainConfig).run freshSystem recordingRun = some last ∧
      Matches mainConfig freshSystem Pool.empty [] recordingRun last := by
  have hrun : ((Collector.machine mainConfig).run freshSystem recordingRun).isSome := by
    decide +kernel
  obtain ⟨last, hrun⟩ := Option.isSome_iff_exists.mp hrun
  exact ⟨last, hrun, sections_match initial_freshSystem hrun⟩

end Kapprofiler.Collector.Locks
