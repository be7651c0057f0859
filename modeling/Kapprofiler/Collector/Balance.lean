import Kapprofiler.Collector.Tracking
import Kapprofiler.Tracing.KernelFilter

/-! # The balance of tracking and tracing

A tracked container has one reference in the count of its mount namespace and one filter
in the sink. Starting counts whether or not the container is tracked, the sink and the map
deduplicate, and a reference is given back wherever tracking ends, so that the three agree
only as long as every container is counted once and gives back its own reference.
-/

namespace Kapprofiler

open Tracing

/-! ## What the tracer counts -/

/-- The gadgets of a running tracer that `AllEventType` stands for keep these counts. -/
structure Tracing.Tracer.Counts (tracer : Tracer) (counts : UInt64 → Nat) : Prop where
  setUp : tracer.SetUp
  counts : ∀ eventType ∈ EventType.allEventType.traced, ∀ count filter,
    tracer.tracingState eventType = .gadget count filter → count = counts

namespace Tracing.Tracer.Counts

variable {tracer : Tracer} {counts : UInt64 → Nat} {mntns : UInt64} {pid : UInt32}

theorem started (maxContainersPerNode : Nat) :
    (Tracer.started maxContainersPerNode).Counts fun _ => 0 := by
  refine ⟨Tracer.setUp_started maxContainersPerNode, ?_⟩
  intro eventType _ count filter hstate
  cases eventType <;> cases hstate <;> rfl

theorem start (hcounts : tracer.Counts counts) :
    (tracer.startTraceContainer mntns pid .allEventType).1.Counts
      (Function.update counts mntns (counts mntns + 1)) := by
  refine ⟨hcounts.setUp.on (.startTraceContainer mntns pid .allEventType), ?_⟩
  intro eventType hmem count filter hstate
  rw [hcounts.setUp.start_tracingState, if_pos hmem] at hstate
  rcases hcounts.setUp.tracable eventType hmem with ⟨before, kernel, heq⟩ | ⟨pids, heq⟩
  · rw [heq] at hstate
    obtain ⟨hafter, _⟩ := TracingState.gadget.inj hstate
    rw [← hafter, hcounts.counts eventType hmem before kernel heq]
  · rw [heq] at hstate
    cases hstate

/-- A count of 0 is left at 0. -/
theorem stop (hcounts : tracer.Counts counts) :
    (tracer.stopTraceContainer mntns pid .allEventType).1.Counts
      (Function.update counts mntns (counts mntns - 1)) := by
  refine ⟨hcounts.setUp.on (.stopTraceContainer mntns pid .allEventType), ?_⟩
  intro eventType hmem count filter hstate
  rw [hcounts.setUp.stop_tracingState, if_pos hmem] at hstate
  rcases hcounts.setUp.tracable eventType hmem with ⟨before, kernel, heq⟩ | ⟨pids, heq⟩
  · rw [heq, hcounts.counts eventType hmem before kernel heq] at hstate
    by_cases hzero : counts mntns = 0
    · rw [TracingState.stop, if_pos hzero] at hstate
      obtain ⟨hafter, _⟩ := TracingState.gadget.inj hstate
      rw [← hafter, hzero, Nat.zero_sub, ← hzero, Function.update_eq_self]
    · rw [TracingState.stop, if_neg hzero] at hstate
      obtain ⟨hafter, _⟩ := TracingState.gadget.inj hstate
      exact hafter.symm
  · rw [heq] at hstate
    cases hstate

end Tracing.Tracer.Counts

/-! ## What the sink filters -/

/-- The filters of the sink are those of `AllEventType` for these container IDs, each of
them once. -/
def EventSink.Holds (sink : EventSink) (containerIDs : Set String) : Prop :=
  ∃ ids : List String, ids.Nodup ∧ (∀ id, id ∈ ids ↔ id ∈ containerIDs) ∧
    sink.eventFilters = ids.map (EventSinkFilter.mk .allEventType)

namespace EventSink.Holds

variable {sink : EventSink} {containerIDs : Set String} {containerID : String}

theorem mem_iff (hholds : sink.Holds containerIDs) :
    ⟨.allEventType, containerID⟩ ∈ sink.eventFilters ↔ containerID ∈ containerIDs := by
  obtain ⟨ids, _, hmem, hfilters⟩ := hholds
  rw [hfilters, List.mem_map_of_injective (fun _ _ heq => (EventSinkFilter.mk.inj heq).2), hmem]

theorem of_eq {next : EventSink} (hholds : sink.Holds containerIDs)
    (heq : next.eventFilters = sink.eventFilters) : next.Holds containerIDs := by
  unfold Holds
  rw [heq]
  exact hholds

theorem addFilter (hholds : sink.Holds containerIDs) :
    (sink.addFilter ⟨.allEventType, containerID⟩).Holds (insert containerID containerIDs) := by
  obtain ⟨ids, hnodup, hmem, hfilters⟩ := hholds
  unfold EventSink.addFilter
  have hany : (sink.eventFilters.any fun f =>
      f.eventType = EventType.allEventType ∧ f.containerID = containerID) = true ↔
      containerID ∈ ids := by
    simp [hfilters]
  by_cases hpresent : containerID ∈ ids
  · rw [if_pos (hany.mpr hpresent)]
    refine ⟨ids, hnodup, ?_, hfilters⟩
    intro id
    rw [hmem, Set.mem_insert_iff, iff_or_self]
    rintro rfl
    exact (hmem _).mp hpresent
  · rw [if_neg (hany.not.mpr hpresent)]
    refine ⟨ids ++ [containerID], ?_, ?_, ?_⟩
    · exact List.nodup_append.mpr ⟨hnodup, List.nodup_singleton _, by grind⟩
    · intro id
      rw [List.mem_append, List.mem_singleton, hmem, Set.mem_insert_iff, or_comm]
    · simp only [hfilters, List.map_append]
      rfl

theorem removeFilter (hholds : sink.Holds containerIDs) :
    (sink.removeFilter ⟨.allEventType, containerID⟩).Holds (containerIDs \ {containerID}) := by
  obtain ⟨ids, hnodup, hmem, hfilters⟩ := hholds
  refine ⟨ids.erase containerID, hnodup.erase _, ?_, ?_⟩
  · intro id
    rw [hnodup.mem_erase_iff, hmem, Set.mem_sdiff, Set.mem_singleton_iff, and_comm]
  · simp only [EventSink.removeFilter, hfilters, List.eraseP_map, List.erase_eq_eraseP']
    apply congrArg fun p => (ids.eraseP p).map (EventSinkFilter.mk .allEventType)
    funext id
    simp [beq_eq_decide]

end EventSink.Holds

namespace Collector

open Foundation

variable {config : CollectorManagerConfig}

/-- Each count that `AllEventType` involves is the number of tracked containers in the mount
namespace, and the sink has the filters of the tracked containers. -/
structure Balanced (world : World) : Prop where
  counts : ∀ eventType ∈ EventType.allEventType.traced, ∀ count filter,
    world.tracer.tracingState eventType = .gadget count filter →
    ∀ mntns, count mntns = (world.containers.keys.filter (·.nsMntId = mntns)).card
  filters : ∀ containerID, ⟨.allEventType, containerID⟩ ∈ world.eventSink.eventFilters ↔
    ∃ id ∈ world.containers, id.containerID = containerID

namespace System

variable {system next : System} {call : Nat} {id : ContainerId}

/-- Some call for the container is at one of the stages. -/
def InSome (system : System) (id : ContainerId) (stages : List Stage) : Prop :=
  ∃ stage ∈ stages, system.InStage id stage

instance (system : System) (id : ContainerId) (stages : List Stage) :
    Decidable (system.InSome id stages) :=
  inferInstanceAs (Decidable (∃ stage ∈ stages, system.InStage id stage))

theorem inSome_congr (hstages : ∀ call, next.stageAt call = system.stageAt call)
    (id : ContainerId) (stages : List Stage) :
    next.InSome id stages ↔ system.InSome id stages := by
  simp only [InSome, inStage_congr hstages]

theorem inSome_iff_of_ne {moved was : Option (ContainerId × Stage)} {stages : List Stage}
    (hsteps : system.Steps next call moved) (hwas : system.stageAt call = was)
    (hmoved : ∀ stage ∈ stages, moved ≠ some (id, stage))
    (hbefore : ∀ stage ∈ stages, was ≠ some (id, stage)) :
    next.InSome id stages ↔ system.InSome id stages := by
  apply exists_congr
  intro stage
  apply and_congr_right
  intro hstage
  exact inStage_iff_of_ne hsteps hwas (hmoved stage hstage) (hbefore stage hstage)

/-- The call enters one of the stages. -/
theorem inSome_iff_of_enter {stage : Stage} {stages : List Stage}
    {was : Option (ContainerId × Stage)}
    (hsteps : system.Steps next call (some (id, stage))) (hwas : system.stageAt call = was)
    (hown : ∀ other stage, was = some (other, stage) → other = id) (hstage : stage ∈ stages)
    (other : ContainerId) :
    next.InSome other stages ↔ other = id ∨ system.InSome other stages := by
  by_cases hother : other = id
  · subst hother
    exact iff_of_true ⟨stage, hstage, call, by rw [hsteps call, if_pos rfl]⟩ (.inl rfl)
  · rw [or_iff_right hother]
    apply inSome_iff_of_ne hsteps hwas
    · intro stage _ heq
      exact hother (congrArg Prod.fst (Option.some.inj heq)).symm
    · intro stage _ heq
      exact hother (hown other stage heq)

/-- The call goes from one of the stages to another. -/
theorem inSome_iff_of_within {was stage : Stage} {stages : List Stage}
    (hsteps : system.Steps next call (some (id, stage)))
    (hwas : system.stageAt call = some (id, was)) (hbefore : was ∈ stages)
    (hstage : stage ∈ stages) (other : ContainerId) :
    next.InSome other stages ↔ system.InSome other stages := by
  rw [inSome_iff_of_enter hsteps hwas (by simp) hstage]
  apply or_iff_right_of_imp
  rintro rfl
  exact ⟨was, hbefore, call, hwas⟩

/-- A pass of the container has removed its filter and has yet to untrack it. -/
def GivingUp (system : System) (id : ContainerId) : Prop :=
  system.InSome id [.unfiltered, .untraced, .unmarked]

/-- A pass of the container has ended its tracing and has yet to untrack it. -/
def Released (system : System) (id : ContainerId) : Prop :=
  system.InSome id [.untraced, .unmarked]

/-- The container has its filter. -/
def Filtered (system : System) (id : ContainerId) : Prop :=
  id ∈ system.world.containers ∧ ¬ system.GivingUp id

/-- The container has its reference. -/
def Counted (system : System) (id : ContainerId) : Prop :=
  id ∈ system.world.containers ∧ ¬ system.InStage id .tracked ∧ ¬ system.Released id

instance (system : System) (id : ContainerId) : Decidable (system.GivingUp id) :=
  inferInstanceAs (Decidable (system.InSome _ _))

instance (system : System) (id : ContainerId) : Decidable (system.Filtered id) :=
  inferInstanceAs (Decidable (_ ∧ ¬ _))

instance (system : System) (id : ContainerId) : Decidable (system.Counted id) :=
  inferInstanceAs (Decidable (_ ∧ ¬ _ ∧ ¬ system.InSome _ _))

/-- No other container with this container ID has its filter. -/
def OwnFilter (system : System) (id : ContainerId) : Prop :=
  ∀ other ∈ system.world.containers.keys, system.Filtered other →
    other.containerID = id.containerID → other = id

/-- No start of the container is about to trace it, and the container has its reference or
its mount namespace has none. -/
def OwnReference (system : System) (id : ContainerId) : Prop :=
  ¬ system.InStage id .tracked ∧ (system.Counted id ∨
    ∀ other ∈ system.world.containers.keys, system.Counted other → other.nsMntId ≠ id.nsMntId)

instance (system : System) (id : ContainerId) : Decidable (system.OwnFilter id) :=
  inferInstanceAs (Decidable (∀ other ∈ system.world.containers.keys, _ → _ → _))

instance (system : System) (id : ContainerId) : Decidable (system.OwnReference id) :=
  inferInstanceAs (Decidable (_ ∧ (_ ∨ ∀ other ∈ system.world.containers.keys, _ → _)))

end System

/-- A start tracks what is neither tracked nor being given up, and what a pass gives back is
its container's own. -/
def Call.Separate (system : System) : Call → Prop
  | .containerStarted id _ .track => id ∉ system.world.containers ∧ ¬ system.GivingUp id
  | .collectContainerEvents id (.removeFilter _) => system.OwnFilter id
  | .collectContainerEvents id (.stopTrace _) => system.OwnReference id
  | _ => True

instance (system : System) : DecidablePred (Call.Separate system)
  | .containerStarted id _ .track =>
      inferInstanceAs (Decidable (id ∉ system.world.containers ∧ ¬ system.GivingUp id))
  | .collectContainerEvents id (.removeFilter _) =>
      inferInstanceAs (Decidable (system.OwnFilter id))
  | .collectContainerEvents id (.stopTrace _) =>
      inferInstanceAs (Decidable (system.OwnReference id))
  | .containerStarted _ _ .checkProfile | .containerStarted _ _ .fetchMounts
  | .containerStarted _ _ .startTrace | .containerStarted _ _ .startTimer
  | .containerStarted _ _ .markRecording | .containerStarted _ _ .setRecording
  | .containerStarted _ _ .returned | .collectContainerEvents _ .lookup
  | .collectContainerEvents _ (.load ..) | .collectContainerEvents _ (.get ..)
  | .collectContainerEvents _ (.create ..) | .collectContainerEvents _ (.limitPatch ..)
  | .collectContainerEvents _ (.update ..) | .collectContainerEvents _ (.markNotRecording _)
  | .collectContainerEvents _ (.untrack _) | .collectContainerEvents _ .failedPatch
  | .collectContainerEvents _ (.restartTimer _) | .collectContainerEvents _ (.returned _)
  | .finalizeProfile .. | .deleteProfile .. => .isTrue trivial

def Separate (system : System) : Label → Prop
  | .containerStopped id => id ∈ system.world.containers →
      system.OwnFilter id ∧ system.OwnReference id
  | .advance call _ => ∀ current ∈ system.calls[call]?, current.Separate system
  | _ => True

instance (system : System) : DecidablePred (Separate system)
  | .containerStopped id =>
      inferInstanceAs (Decidable (id ∈ system.world.containers → _ ∧ _))
  | .advance call _ =>
      inferInstanceAs (Decidable (∀ current ∈ system.calls[call]?, current.Separate system))
  | .containerStarted _ _ | .timerExpired _ | .sink _ | .podAdded _ | .podUpdated _
  | .podDeleted _ | .finalizationTimerExpired _ | .finalizeApplicationProfile _ =>
      .isTrue trivial

/-! ## The invariant -/

namespace System

variable {system next : System} {call : Nat} {id : ContainerId}

/-- The containers with a reference to the mount namespace. -/
def counted (system : System) (mntns : UInt64) : Finset ContainerId :=
  system.world.containers.keys.filter fun id => system.Counted id ∧ id.nsMntId = mntns

theorem mem_counted {mntns : UInt64} :
    id ∈ system.counted mntns ↔ system.Counted id ∧ id.nsMntId = mntns := by
  rw [counted, Finset.mem_filter, Finmap.mem_keys]
  exact and_iff_right_of_imp fun h => h.1.1

/-- The number of references to each mount namespace. -/
def references (system : System) (mntns : UInt64) : Nat := (system.counted mntns).card

/-- The container IDs with a filter. -/
def filteredIDs (system : System) : Set String :=
  {containerID | ∃ id, system.Filtered id ∧ id.containerID = containerID}

theorem references_congr (hcounted : ∀ other, next.Counted other ↔ system.Counted other) :
    next.references = system.references := by
  funext mntns
  apply congrArg Finset.card
  ext other
  rw [mem_counted, mem_counted, hcounted]

theorem references_insert (hnew : ¬ system.Counted id)
    (hcounted : ∀ other, next.Counted other ↔ other = id ∨ system.Counted other) :
    next.references =
      Function.update system.references id.nsMntId (system.references id.nsMntId + 1) := by
  funext mntns
  by_cases hmntns : mntns = id.nsMntId
  · have hset : next.counted mntns = insert id (system.counted mntns) := by
      ext other
      rw [Finset.mem_insert, mem_counted, mem_counted, hcounted]
      constructor
      · intro ⟨hother, hns⟩
        exact hother.imp_right fun h => ⟨h, hns⟩
      · rintro (rfl | hother)
        · exact ⟨.inl rfl, hmntns.symm⟩
        · exact ⟨.inr hother.1, hother.2⟩
    have hnot : id ∉ system.counted mntns := fun hmem => hnew (mem_counted.mp hmem).1
    rw [references, hset, Finset.card_insert_of_notMem hnot, hmntns, Function.update_self]
    rfl
  · have hset : next.counted mntns = system.counted mntns := by
      ext other
      rw [mem_counted, mem_counted, hcounted]
      apply and_congr_left
      rintro rfl
      exact or_iff_right fun heq => hmntns (congrArg ContainerId.nsMntId heq)
    rw [references, hset, Function.update_of_ne hmntns]
    rfl

/-- The container gives back its own reference, or there is none to take. -/
theorem references_erase (hown : system.OwnReference id)
    (hcounted : ∀ other, next.Counted other ↔ other ≠ id ∧ system.Counted other) :
    next.references =
      Function.update system.references id.nsMntId (system.references id.nsMntId - 1) := by
  have hset : ∀ mntns, next.counted mntns = (system.counted mntns).erase id := by
    intro mntns
    ext other
    rw [Finset.mem_erase, mem_counted, mem_counted, hcounted, and_assoc]
  funext mntns
  by_cases hmntns : mntns = id.nsMntId
  · subst hmntns
    rw [references, hset, Function.update_self]
    rcases hown.2 with hid | hnone
    · exact Finset.card_erase_of_mem (mem_counted.mpr ⟨hid, rfl⟩)
    · have hempty : system.counted id.nsMntId = ∅ := by
        apply Finset.eq_empty_of_forall_notMem
        intro other hother
        obtain ⟨hother, hns⟩ := mem_counted.mp hother
        exact hnone other (Finmap.mem_keys.mpr hother.1) hother hns
      rw [references, hempty]
      rfl
  · have hnot : id ∉ system.counted mntns := by
      intro hmem
      exact hmntns (mem_counted.mp hmem).2.symm
    rw [references, hset, Finset.erase_eq_of_notMem hnot, Function.update_of_ne hmntns]
    rfl

theorem filteredIDs_congr (hfiltered : ∀ other, next.Filtered other ↔ system.Filtered other) :
    next.filteredIDs = system.filteredIDs := by
  simp only [filteredIDs, hfiltered]

theorem filteredIDs_insert
    (hfiltered : ∀ other, next.Filtered other ↔ other = id ∨ system.Filtered other) :
    next.filteredIDs = insert id.containerID system.filteredIDs := by
  ext containerID
  simp only [filteredIDs, hfiltered, Set.mem_insert_iff, Set.mem_ofPred_eq, or_and_right,
    exists_or, exists_eq_left]
  rw [eq_comm]

theorem filteredIDs_erase (hown : system.OwnFilter id)
    (hfiltered : ∀ other, next.Filtered other ↔ other ≠ id ∧ system.Filtered other) :
    next.filteredIDs = system.filteredIDs \ {id.containerID} := by
  ext containerID
  rw [Set.mem_sdiff, Set.mem_singleton_iff]
  constructor
  · rintro ⟨other, hother, rfl⟩
    obtain ⟨hne, hbefore⟩ := (hfiltered other).mp hother
    refine ⟨⟨other, hbefore, rfl⟩, ?_⟩
    intro heq
    exact hne (hown other (Finmap.mem_keys.mpr hbefore.1) hbefore heq)
  · rintro ⟨⟨other, hother, rfl⟩, hne⟩
    refine ⟨other, (hfiltered other).mpr ⟨?_, hother⟩, rfl⟩
    rintro rfl
    exact hne rfl

end System

/-- Every container has its reference and its filter as far as the calls have come, and at
most one start of it, which tracked it, is about to trace it. -/
structure Tallied (system : System) : Prop where
  counts : system.world.tracer.Counts system.references
  filters : system.world.eventSink.Holds system.filteredIDs
  starting : ∀ id, system.InStage id .tracked →
    id ∈ system.world.containers ∧ ¬ system.Released id
  once : ∀ id call other, system.stageAt call = some (id, .tracked) →
    system.stageAt other = some (id, .tracked) → call = other

section Moves

variable {system next : System} {call : Nat} {id : ContainerId}

/-- A step that begins no start has what its world has to show for it. -/
theorem Tallied.of_fewer (htallied : Tallied system)
    (hfewer : ∀ call id, next.stageAt call = some (id, .tracked) →
      system.stageAt call = some (id, .tracked))
    (hcounts : next.world.tracer.Counts next.references)
    (hfilters : next.world.eventSink.Holds next.filteredIDs)
    (hstarting : ∀ id, next.InStage id .tracked → system.InStage id .tracked →
      id ∈ next.world.containers ∧ ¬ next.Released id) : Tallied next where
  counts := hcounts
  filters := hfilters
  starting := by
    intro id ⟨call, hcall⟩
    exact hstarting id ⟨call, hcall⟩ ⟨call, hfewer call id hcall⟩
  once := by
    intro id call other hcall hother
    exact htallied.once id call other (hfewer call id hcall) (hfewer other id hother)

theorem System.Steps.fewer {moved : Option (ContainerId × Stage)}
    (hsteps : system.Steps next call moved) (hmoved : ∀ id, moved ≠ some (id, .tracked))
    (other : Nat) (id : ContainerId) (hother : next.stageAt other = some (id, .tracked)) :
    system.stageAt other = some (id, .tracked) := by
  rw [hsteps other] at hother
  split at hother
  · exact absurd hother (hmoved id)
  · exact hother

/-- A step that changes neither the containers' references nor their filters. -/
theorem Tallied.of_same (htallied : Tallied system)
    (hcontainers : next.world.containers = system.world.containers)
    (htracer : next.world.tracer = system.world.tracer)
    (hfilters : next.world.eventSink.eventFilters = system.world.eventSink.eventFilters)
    (hfewer : ∀ call id, next.stageAt call = some (id, .tracked) →
      system.stageAt call = some (id, .tracked))
    (htracked : ∀ id, next.InStage id .tracked ↔ system.InStage id .tracked)
    (hreleased : ∀ id, next.Released id ↔ system.Released id)
    (hgivingUp : ∀ id, next.GivingUp id ↔ system.GivingUp id) : Tallied next := by
  refine htallied.of_fewer hfewer ?_ ?_ ?_
  · rw [htracer, System.references_congr]
    · exact htallied.counts
    · intro id
      unfold System.Counted
      rw [hcontainers, htracked, hreleased]
  · rw [System.filteredIDs_congr]
    · exact htallied.filters.of_eq hfilters
    · intro id
      unfold System.Filtered
      rw [hcontainers, hgivingUp]
  · intro id _ hstage
    rw [hcontainers, hreleased]
    exact htallied.starting id hstage

/-- The call is the only start of the container that is about to trace it. -/
theorem System.Steps.once (hsteps : system.Steps next call (some (id, .tracked)))
    (honce : ∀ id first second, system.stageAt first = some (id, .tracked) →
      system.stageAt second = some (id, .tracked) → first = second)
    (hnone : ∀ call, system.stageAt call ≠ some (id, .tracked)) (other : ContainerId)
    (first second : Nat) (hfirst : next.stageAt first = some (other, .tracked))
    (hsecond : next.stageAt second = some (other, .tracked)) : first = second := by
  have hcall : ∀ start, next.stageAt start = some (other, .tracked) →
      start = call ∧ other = id ∨ system.stageAt start = some (other, .tracked) := by
    intro start hstart
    rw [hsteps start] at hstart
    split at hstart
    next heq =>
      obtain ⟨rfl, -⟩ := Prod.mk.inj (Option.some.inj hstart)
      exact .inl ⟨heq, rfl⟩
    next => exact .inr hstart
  rcases hcall first hfirst with ⟨rfl, rfl⟩ | hfirst
  · rcases hcall second hsecond with ⟨rfl, -⟩ | hsecond
    · rfl
    · exact absurd hsecond (hnone second)
  · rcases hcall second hsecond with ⟨rfl, rfl⟩ | hsecond
    · exact absurd hfirst (hnone first)
    · exact honce other first second hfirst hsecond

/-- A start tracks the container, and is about to trace it. -/
theorem Tallied.track {attach : Bool} (htallied : Tallied system)
    (hnew : id ∉ system.world.containers) (hkept : ¬ system.GivingUp id)
    (hwas : system.stageAt call = none) (hsteps : system.Steps next call (some (id, .tracked)))
    (hworld : next.world = World.addFilter { system.world with
      containers := system.world.containers.insert id ⟨true, attach⟩ } id) : Tallied next := by
  have hcontainers : next.world.containers = system.world.containers.insert id ⟨true, attach⟩ := by
    rw [hworld]
    rfl
  have hmem : ∀ other, other ∈ next.world.containers ↔
      other = id ∨ other ∈ system.world.containers := by
    intro other
    rw [hcontainers, Finmap.mem_insert]
  have hreleased : ∀ other, next.Released other ↔ system.Released other := fun other =>
    System.inSome_iff_of_ne hsteps hwas (by simp) (by simp)
  have hgivingUp : ∀ other, next.GivingUp other ↔ system.GivingUp other := fun other =>
    System.inSome_iff_of_ne hsteps hwas (by simp) (by simp)
  have hnow : next.InStage id .tracked := ⟨call, by rw [hsteps call, if_pos rfl]⟩
  have htracked : ∀ other, other ≠ id →
      (next.InStage other .tracked ↔ system.InStage other .tracked) := fun other hother =>
    System.inStage_iff_of_ne hsteps hwas (by simp [hother.symm]) (by simp)
  -- The new container counts from its trace on; only its filter is added by now.
  have hcounted : ∀ other, next.Counted other ↔ system.Counted other := by
    intro other
    by_cases hother : other = id
    · subst hother
      exact iff_of_false (fun h => h.2.1 hnow) fun h => hnew h.1
    · unfold System.Counted
      rw [hmem, htracked other hother, hreleased, or_iff_right hother]
  have hfiltered : ∀ other, next.Filtered other ↔ other = id ∨ system.Filtered other := by
    intro other
    unfold System.Filtered
    rw [hmem, hgivingUp]
    by_cases hother : other = id
    · rw [hother]
      simp [hkept]
    · simp [hother]
  have hnone : ∀ call, system.stageAt call ≠ some (id, .tracked) := fun call hcall =>
    hnew (htallied.starting id ⟨call, hcall⟩).1
  constructor
  · rw [System.references_congr hcounted, hworld]
    exact htallied.counts
  · rw [System.filteredIDs_insert hfiltered, hworld]
    exact htallied.filters.addFilter
  · intro other hother
    rw [hmem, hreleased]
    by_cases heq : other = id
    · subst heq
      refine ⟨.inl rfl, ?_⟩
      intro ⟨stage, hstage, hin⟩
      exact hkept ⟨stage, List.mem_cons_of_mem _ hstage, hin⟩
    · have hbefore := htallied.starting other ((htracked other heq).mp hother)
      exact ⟨.inr hbefore.1, hbefore.2⟩
  · exact hsteps.once htallied.once hnone

/-- The start traces the container. -/
theorem Tallied.trace (htallied : Tallied system)
    (hwas : system.stageAt call = some (id, .tracked))
    (hsteps : system.Steps next call (some (id, .traced)))
    (hworld : next.world = system.world.startTraceContainer id) : Tallied next := by
  have hcontainers : next.world.containers = system.world.containers := by
    rw [hworld]
    rfl
  have hreleased : ∀ other, next.Released other ↔ system.Released other := fun other =>
    System.inSome_iff_of_ne hsteps hwas (by simp) (by simp)
  have hgivingUp : ∀ other, next.GivingUp other ↔ system.GivingUp other := fun other =>
    System.inSome_iff_of_ne hsteps hwas (by simp) (by simp)
  have hnow : ¬ next.InStage id .tracked := by
    intro ⟨other, hother⟩
    rw [hsteps other] at hother
    split at hother
    · cases hother
    next hne => exact hne (htallied.once id other call hother hwas)
  have htracked : ∀ other, other ≠ id →
      (next.InStage other .tracked ↔ system.InStage other .tracked) := fun other hother =>
    System.inStage_iff_of_ne hsteps hwas (by simp) (by simp [hother.symm])
  obtain ⟨hmem, hnotReleased⟩ := htallied.starting id ⟨call, hwas⟩
  -- From here on the container has its reference.
  have hcounted : ∀ other, next.Counted other ↔ other = id ∨ system.Counted other := by
    intro other
    unfold System.Counted
    rw [hcontainers, hreleased]
    by_cases hother : other = id
    · subst hother
      exact iff_of_true ⟨hmem, hnow, hnotReleased⟩ (.inl rfl)
    · rw [htracked other hother, or_iff_right hother]
  refine htallied.of_fewer (hsteps.fewer (by simp)) ?_ ?_ ?_
  · rw [System.references_insert (fun h => h.2.1 ⟨call, hwas⟩) hcounted, hworld]
    exact htallied.counts.start
  · rw [System.filteredIDs_congr, hworld]
    · exact htallied.filters
    · intro other
      unfold System.Filtered
      rw [hcontainers, hgivingUp]
  · intro other _ hstage
    rw [hcontainers, hreleased]
    exact htallied.starting other hstage

/-- A stop gives up the container's own reference and filter. -/
theorem Tallied.stop (htallied : Tallied system) (hfilter : system.OwnFilter id)
    (hreference : system.OwnReference id)
    (hstages : ∀ call, next.stageAt call = system.stageAt call)
    (hworld : World.Same ((((system.world.markPodNotRecording id).stopTraceContainer
      id).removeFilter id).untrack id) next.world) : Tallied next := by
  have hmem : ∀ other, other ∈ next.world.containers ↔
      other ≠ id ∧ other ∈ system.world.containers := by
    intro other
    rw [hworld.containers]
    exact Finmap.mem_erase
  refine htallied.of_fewer (fun call id h => hstages call ▸ h) ?_ ?_ ?_
  · rw [hworld.tracer, System.references_erase hreference]
    · exact htallied.counts.stop
    · intro other
      unfold System.Counted System.Released
      rw [hmem, System.inStage_congr hstages, System.inSome_congr hstages, and_assoc]
  · rw [System.filteredIDs_erase hfilter]
    · exact htallied.filters.removeFilter.of_eq hworld.eventFilters
    · intro other
      unfold System.Filtered System.GivingUp
      rw [hmem, System.inSome_congr hstages, and_assoc]
  · intro other _ hstage
    obtain ⟨htracked, hnot⟩ := htallied.starting other hstage
    rw [hmem, System.Released, System.inSome_congr hstages]
    refine ⟨⟨?_, htracked⟩, hnot⟩
    rintro rfl
    exact hreference.1 hstage

/-- A pass removes the container's own filter. -/
theorem Tallied.unfilter (htallied : Tallied system) (hfilter : system.OwnFilter id)
    (hwas : system.stageAt call = none) (hsteps : system.Steps next call (some (id, .unfiltered)))
    (hworld : next.world = system.world.removeFilter id) : Tallied next := by
  have hcontainers : next.world.containers = system.world.containers := by
    rw [hworld]
    rfl
  have hreleased : ∀ other, next.Released other ↔ system.Released other := fun other =>
    System.inSome_iff_of_ne hsteps hwas (by simp) (by simp)
  have hgivingUp : ∀ other, next.GivingUp other ↔ other = id ∨ system.GivingUp other :=
    System.inSome_iff_of_enter hsteps hwas (by simp) (by simp)
  have htracked : ∀ other, next.InStage other .tracked ↔ system.InStage other .tracked :=
    fun other => System.inStage_iff_of_ne hsteps hwas (by simp) (by simp)
  refine htallied.of_fewer (hsteps.fewer (by simp)) ?_ ?_ ?_
  · rw [System.references_congr, hworld]
    · exact htallied.counts
    · intro other
      unfold System.Counted
      rw [hcontainers, hreleased, htracked]
  · rw [System.filteredIDs_erase hfilter, hworld]
    · exact htallied.filters.removeFilter
    · intro other
      unfold System.Filtered
      rw [hcontainers, hgivingUp, not_or, and_left_comm]
  · intro other _ hstage
    rw [hcontainers, hreleased]
    exact htallied.starting other hstage

/-- A pass gives back the container's own reference. -/
theorem Tallied.untrace (htallied : Tallied system) (hreference : system.OwnReference id)
    (hwas : system.stageAt call = some (id, .unfiltered))
    (hsteps : system.Steps next call (some (id, .untraced)))
    (hworld : next.world = system.world.stopTraceContainer id) : Tallied next := by
  have hcontainers : next.world.containers = system.world.containers := by
    rw [hworld]
    rfl
  have hreleased : ∀ other, next.Released other ↔ other = id ∨ system.Released other :=
    System.inSome_iff_of_enter hsteps hwas (by simp) (by simp)
  have hgivingUp : ∀ other, next.GivingUp other ↔ system.GivingUp other :=
    System.inSome_iff_of_within hsteps hwas (by simp) (by simp)
  have htracked : ∀ other, next.InStage other .tracked ↔ system.InStage other .tracked :=
    fun other => System.inStage_iff_of_ne hsteps hwas (by simp) (by simp)
  refine htallied.of_fewer (hsteps.fewer (by simp)) ?_ ?_ ?_
  · rw [System.references_erase hreference, hworld]
    · exact htallied.counts.stop
    · intro other
      unfold System.Counted
      rw [hcontainers, hreleased, htracked, not_or]
      tauto
  · rw [System.filteredIDs_congr, hworld]
    · exact htallied.filters
    · intro other
      unfold System.Filtered
      rw [hcontainers, hgivingUp]
  · intro other _ hstage
    obtain ⟨hmem, hnot⟩ := htallied.starting other hstage
    rw [hcontainers, hreleased, not_or]
    refine ⟨hmem, ?_, hnot⟩
    rintro rfl
    exact hreference.1 hstage

/-- A pass untracks the container, which has neither reference nor filter any more. -/
theorem Tallied.untrack (htallied : Tallied system)
    (hwas : system.stageAt call = some (id, .unmarked)) (hsteps : system.Steps next call none)
    (hworld : next.world = system.world.untrack id) : Tallied next := by
  have hmem : ∀ other, other ∈ next.world.containers ↔
      other ≠ id ∧ other ∈ system.world.containers := by
    intro other
    rw [hworld]
    exact Finmap.mem_erase
  -- Filter and reference were given back before, so the container counts for neither.
  have hwasReleased : system.Released id := ⟨.unmarked, by simp, call, hwas⟩
  have hwasGivingUp : system.GivingUp id := ⟨.unmarked, by simp, call, hwas⟩
  have hkept : ∀ other, other ≠ id → ∀ stages,
      (next.InSome other stages ↔ system.InSome other stages) := by
    intro other hother stages
    exact System.inSome_iff_of_ne hsteps hwas (by simp) (by simp [hother.symm])
  have htracked : ∀ other, next.InStage other .tracked ↔ system.InStage other .tracked :=
    fun other => System.inStage_iff_of_ne hsteps hwas (by simp) (by simp)
  refine htallied.of_fewer (hsteps.fewer (by simp)) ?_ ?_ ?_
  · rw [System.references_congr, hworld]
    · exact htallied.counts
    · intro other
      by_cases hother : other = id
      · subst hother
        exact iff_of_false (fun h => ((hmem _).mp h.1).1 rfl) fun h => h.2.2 hwasReleased
      · unfold System.Counted System.Released
        rw [hmem, htracked, hkept other hother, and_iff_right hother]
  · rw [System.filteredIDs_congr, hworld]
    · exact htallied.filters
    · intro other
      by_cases hother : other = id
      · subst hother
        exact iff_of_false (fun h => ((hmem _).mp h.1).1 rfl) fun h => h.2 hwasGivingUp
      · unfold System.Filtered System.GivingUp
        rw [hmem, hkept other hother, and_iff_right hother]
  · intro other _ hstage
    obtain ⟨htracked, hnot⟩ := htallied.starting other hstage
    have hother : other ≠ id := by
      rintro rfl
      exact hnot hwasReleased
    rw [hmem, System.Released, hkept other hother]
    exact ⟨⟨hother, htracked⟩, hnot⟩

theorem tallied_step {label : Label} (htallied : Tallied system)
    (hseparate : Separate system label) (hstep : step config system label = some next) :
    Tallied next := by
  cases moves_of_step hstep with
  | idle hworld hstages =>
      exact htallied.of_same hworld.containers hworld.tracer hworld.eventFilters
        (fun call id h => hstages call ▸ h)
        (fun id => System.inStage_congr hstages id _)
        (fun id => System.inSome_congr hstages id _) fun id => System.inSome_congr hstages id _
  | track id attach hcall hsteps hworld =>
      obtain ⟨hnew, hkept⟩ : id ∉ _ ∧ ¬ system.GivingUp id := hseparate _ hcall
      exact htallied.track hnew hkept (congrArg (·.bind Call.stage) hcall) hsteps hworld
  | trace id hstage hsteps hworld => exact htallied.trace hstage hsteps hworld
  | giveUp id hstage _ hsteps hworld =>
      exact htallied.of_same hworld.containers hworld.tracer hworld.eventFilters
        (hsteps.fewer (by simp))
        (fun other => System.inStage_iff_of_ne hsteps hstage (by simp) (by simp))
        (fun other => System.inSome_iff_of_ne hsteps hstage (by simp) (by simp))
        fun other => System.inSome_iff_of_ne hsteps hstage (by simp) (by simp)
  | record id hstage hsteps hworld =>
      exact htallied.of_same (by rw [hworld]) (by rw [hworld]) (by rw [hworld])
        (hsteps.fewer (by simp))
        (fun other => System.inStage_iff_of_ne hsteps hstage (by simp) (by simp))
        (fun other => System.inSome_iff_of_ne hsteps hstage (by simp) (by simp))
        fun other => System.inSome_iff_of_ne hsteps hstage (by simp) (by simp)
  | stop id htracked hstages hworld =>
      obtain ⟨hfilter, hreference⟩ := hseparate htracked
      exact htallied.stop hfilter hreference hstages hworld
  | unfilter id exit hcall hsteps hworld =>
      have hfilter : system.OwnFilter id := hseparate _ hcall
      exact htallied.unfilter hfilter (congrArg (·.bind Call.stage) hcall) hsteps hworld
  | untrace id exit hcall hsteps hworld =>
      have hreference : system.OwnReference id := hseparate _ hcall
      exact htallied.untrace hreference (congrArg (·.bind Call.stage) hcall) hsteps hworld
  | unmark id exit hcall hsteps hworld =>
      have hstage : system.stageAt _ = some (id, .untraced) := congrArg (·.bind Call.stage) hcall
      exact htallied.of_same (by rw [hworld]; rfl) (by rw [hworld]; rfl) (by rw [hworld]; rfl)
        (hsteps.fewer (by simp))
        (fun other => System.inStage_iff_of_ne hsteps hstage (by simp) (by simp))
        (System.inSome_iff_of_within hsteps hstage (by simp) (by simp))
        (System.inSome_iff_of_within hsteps hstage (by simp) (by simp))
  | untrack id hstage hsteps hworld => exact htallied.untrack hstage hsteps hworld

end Moves

/-! ## Whole runs -/

theorem tallied_initial {system : System} {maxContainersPerNode : Nat} (hinit : Initial system)
    (htracer : system.world.tracer = .started maxContainersPerNode)
    (hfilters : system.world.eventSink.eventFilters = []) : Tallied system := by
  have hquiet := hinit.quiescent
  obtain ⟨hcontainers, _, _, _, _⟩ := hinit
  have hempty : ∀ id, id ∉ system.world.containers := by
    intro id htracked
    rw [hcontainers] at htracked
    exact Finmap.notMem_empty htracked
  have hreferences : system.references = fun _ => 0 := by
    funext mntns
    apply Finset.card_eq_zero.mpr
    apply Finset.eq_empty_of_forall_notMem
    intro id hid
    exact hempty id (System.mem_counted.mp hid).1.1
  refine ⟨?_, ⟨[], List.nodup_nil, ?_, hfilters⟩, ?_, ?_⟩
  · rw [hreferences, htracer]
    exact .started maxContainersPerNode
  · intro containerID
    refine iff_of_false List.not_mem_nil ?_
    rintro ⟨id, hid, _⟩
    exact hempty id hid.1
  · intro id hstage
    exact absurd hstage (hquiet.not_inStage id _)
  · intro id call other hcall
    exact absurd ⟨call, hcall⟩ (hquiet.not_inStage id .tracked)

theorem Tallied.balanced {system : System} (htallied : Tallied system)
    (hquiet : system.Quiescent) : Balanced system.world := by
  have hnone := hquiet.not_inStage
  have hcounted : ∀ id, system.Counted id ↔ id ∈ system.world.containers := fun id =>
    and_iff_left ⟨hnone id _, fun ⟨stage, _, hin⟩ => hnone id stage hin⟩
  have hfiltered : ∀ id, system.Filtered id ↔ id ∈ system.world.containers := fun id =>
    and_iff_left fun ⟨stage, _, hin⟩ => hnone id stage hin
  constructor
  · intro eventType hmem count filter hstate mntns
    rw [htallied.counts.counts eventType hmem count filter hstate]
    apply congrArg Finset.card
    ext id
    rw [System.mem_counted, Finset.mem_filter, Finmap.mem_keys, hcounted]
  · intro containerID
    rw [htallied.filters.mem_iff]
    apply exists_congr
    intro id
    rw [hfiltered]

/-- Whenever no call is in progress, the references and the filters are those of the tracked
containers, in every run in which each container has its own. -/
theorem balanced_of_separate {start last : System} {labels : List Label}
    {maxContainersPerNode : Nat} (hinit : Initial start)
    (htracer : start.world.tracer = .started maxContainersPerNode)
    (hfilters : start.world.eventSink.eventFilters = [])
    (hseparate : (machine config).Along Separate start labels)
    (hrun : (machine config).run start labels = some last) (hquiet : last.Quiescent) :
    Balanced last.world := by
  have htallied : Tallied last := by
    refine (machine config).run_invariant_along ?_ (tallied_initial hinit htracer hfilters)
      hseparate hrun
    intro system label next htallied hseparate hstep
    exact tallied_step htallied hseparate hstep
  exact htallied.balanced hquiet

/-- A container is started, stopped and started again. -/
def startedAgain : List Label :=
  .containerStarted nginx false :: .replicate 7 (.advance 0 {}) ++
    [.containerStopped nginx, .advance 1 {}] ++
    .containerStarted nginx false :: .replicate 7 (.advance 2 {})

theorem startedAgain_balanced :
    ∃ last, (machine mainConfig).run freshSystem startedAgain = some last ∧
      Balanced last.world := by
  have hends : ((machine mainConfig).run freshSystem startedAgain).map
      (fun last => decide last.Quiescent) = some true := by decide
  obtain ⟨last, hrun, hquiet⟩ := Option.map_eq_some_iff.mp hends
  rw [decide_eq_true_eq] at hquiet
  exact ⟨last, hrun, balanced_of_separate initial_freshSystem rfl rfl (by decide) hrun hquiet⟩

/-- The container is reported as attached and as started. -/
def reportedTwice : List Label :=
  .containerStarted nginx true :: .replicate 6 (.advance 0 {}) ++
    .containerStarted nginx false :: .replicate 7 (.advance 1 {})

theorem reportedTwice_counted_twice :
    ¬ ∀ (config : CollectorManagerConfig) (start last : System) (labels : List Label)
      (maxContainersPerNode : Nat), Initial start →
      start.world.tracer = .started maxContainersPerNode →
      start.world.eventSink.eventFilters = [] →
      (machine config).run start labels = some last → last.Quiescent →
      Balanced last.world := by
  intro hclaim
  have hends : ((machine mainConfig).run freshSystem reportedTwice).map
      (fun last => ((last.world.containers.keys.filter (·.nsMntId = 1)).card,
        match last.world.tracer.tracingState .openEventType with
        | .gadget count _ => count 1
        | _ => 0, decide last.Quiescent)) = some (1, 2, true) := by decide
  obtain ⟨last, hrun, hlast⟩ := Option.map_eq_some_iff.mp hends
  simp only [Prod.mk.injEq, decide_eq_true_eq] at hlast
  obtain ⟨hone, htwo, hquiet⟩ := hlast
  have hbalanced := hclaim mainConfig freshSystem last reportedTwice 1024 initial_freshSystem
    rfl rfl hrun hquiet
  cases hstate : last.world.tracer.tracingState .openEventType with
  | gadget count filter =>
      have hcount := hbalanced.counts .openEventType (by decide) count filter hstate 1
      rw [hone] at hcount
      rw [hstate] at htwo
      exact absurd (htwo.symm.trans hcount) (by decide)
  | attachable | peekable | absent =>
      rw [hstate] at htwo
      cases htwo

end Collector

end Kapprofiler
