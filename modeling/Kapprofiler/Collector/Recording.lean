import Mathlib.Data.Set.Function
import Kapprofiler.Collector.Tracking

/-! # The recording mark of a pod

`MarkPodRecording` and `MarkPodNotRecording` keep one boolean for all containers of a
pod. Giving up one container clears it, whatever the others do, so that it mirrors the
tracked containers only as long as a pod gives up its last container at a time when no
start of that container is under way.
-/

namespace Kapprofiler.Collector

open Foundation

variable {config : CollectorManagerConfig}

/-- The key of a container's pod in `podFinalizerState`. -/
def ContainerId.tableKey (id : ContainerId) : String := generateTableKey id.podName id.nameSpace

/-- A container that is recorded. -/
def World.Tracks (world : World) (name nameSpace : String) : Prop :=
  ∃ id, id ∈ world.containers ∧ id.podName = name ∧ id.nameSpace = nameSpace

/-- The argument of `rand.Intn` is positive, so that no timer panics. -/
def CollectorManagerConfig.JitterPositive (config : CollectorManagerConfig) : Prop :=
  0 < config.finalizeJitter.toNat ∧ config.finalizeJitter.toNat < 2 ^ 63

/-- The marks of the given pods say which of them have tracked containers, and such a pod
has a finalization timer once an update reports it ready. -/
structure RecordingMirrors (config : CollectorManagerConfig) (pods : Set (String × String))
    (world : World) : Prop where
  mirrors : ∀ name nameSpace, (name, nameSpace) ∈ pods →
    (world.finalizer.recordingAt (generateTableKey name nameSpace) = true ↔
      world.Tracks name nameSpace)
  finalizes : ∀ pod : Pod, config.JitterPositive → (pod.name, pod.nameSpace) ∈ pods →
    pod.ready = true → world.Tracks pod.name pod.nameSpace →
    ∃ next state, world.finalizer.handlePodUpdateEvent config pod = some next ∧
      next.podFinalizerState.lookup (generateTableKey pod.name pod.nameSpace) = some state ∧
      state.finalizationTimer.isSome = true

/-! ## The conditions on a step -/

/-- The pod lookup of `MarkPodRecording`, if the call makes it now, finds the pod. -/
def Call.FindsPod (answers : Answers) : Call → Prop
  | .containerStarted id true .markRecording =>
      (answers.cluster.pods id.nameSpace id.podName).isSome = true
  | _ => True

instance (answers : Answers) : DecidablePred (Call.FindsPod answers) := fun call => by
  unfold Call.FindsPod
  split <;> infer_instance

def PodsFound (system : System) : Label → Prop
  | .advance call answers => ∀ current ∈ system.calls[call]?, current.FindsPod answers
  | _ => True

instance (system : System) : DecidablePred (PodsFound system)
  | .advance call answers =>
      inferInstanceAs (Decidable (∀ current ∈ system.calls[call]?, current.FindsPod answers))
  | .containerStarted _ _ | .containerStopped _ | .timerExpired _ | .sink _ | .podAdded _
  | .podUpdated _ | .podDeleted _ | .finalizationTimerExpired _
  | .finalizeApplicationProfile _ => .isTrue trivial

namespace System

/-- A start of the container has tracked it and has not returned. -/
def Starting (system : System) (id : ContainerId) : Prop :=
  system.InStage id .tracked ∨ system.InStage id .traced

/-- The container is tracked, its start is over, and no pass is about to untrack it. -/
def Settled (system : System) (id : ContainerId) : Prop :=
  id ∈ system.world.containers ∧ ¬ system.Starting id ∧ ¬ system.InStage id .unmarked

instance (system : System) (id : ContainerId) : Decidable (system.Starting id) :=
  inferInstanceAs (Decidable (_ ∨ _))

instance (system : System) (id : ContainerId) : Decidable (system.Settled id) :=
  inferInstanceAs (Decidable (_ ∧ ¬ _ ∧ ¬ _))

/-- No other container of the pod is settled, and no start of this one is under way. -/
def LastOfPod (system : System) (id : ContainerId) : Prop :=
  ¬ system.Starting id ∧ ∀ other ∈ system.world.containers.keys,
    system.Settled other → other.tableKey = id.tableKey → other = id

instance (system : System) (id : ContainerId) : Decidable (system.LastOfPod id) :=
  inferInstanceAs (Decidable (_ ∧ ∀ other ∈ system.world.containers.keys, _ → _ → _))

end System

/-- A step of the call does not track a container whose mark a pass has cleared before it
untracks it, and clears a mark for the last container of a pod only. -/
def Call.MarksApart (system : System) : Call → Prop
  | .containerStarted id _ .track => ¬ system.InStage id .unmarked
  | .collectContainerEvents id (.markNotRecording _) => system.LastOfPod id
  | _ => True

instance (system : System) : DecidablePred (Call.MarksApart system) := fun call => by
  unfold Call.MarksApart
  split <;> infer_instance

def MarksApart (system : System) : Label → Prop
  | .containerStopped id => id ∈ system.world.containers → system.LastOfPod id
  | .advance call _ => ∀ current ∈ system.calls[call]?, current.MarksApart system
  | _ => True

instance (system : System) : DecidablePred (MarksApart system)
  | .containerStopped id =>
      inferInstanceAs (Decidable (id ∈ system.world.containers → system.LastOfPod id))
  | .advance call _ =>
      inferInstanceAs (Decidable (∀ current ∈ system.calls[call]?, current.MarksApart system))
  | .containerStarted _ _ | .timerExpired _ | .sink _ | .podAdded _ | .podUpdated _
  | .podDeleted _ | .finalizationTimerExpired _ | .finalizeApplicationProfile _ =>
      .isTrue trivial

/-! ## The invariant -/

/-- How the marks relate to the containers while calls are in progress. -/
structure Marked (system : System) : Prop where
  started : ∀ id, system.Starting id → id ∈ system.world.containers
  apart : ∀ id, system.Starting id → ¬ system.InStage id .unmarked
  recorded : ∀ id, system.Settled id → system.world.finalizer.recordingAt id.tableKey = true
  tracked : ∀ key, system.world.finalizer.recordingAt key = true →
    ∃ id, id ∈ system.world.containers ∧ id.tableKey = key ∧ ¬ system.InStage id .unmarked

section Moves

variable {system next : System} {call : Nat} {id : ContainerId}

/-- A step that leaves the marks and the stages that matter alone. -/
theorem Marked.of_same (hmarked : Marked system)
    (hcontainers : next.world.containers = system.world.containers)
    (hrecording : ∀ key, next.world.finalizer.recordingAt key =
      system.world.finalizer.recordingAt key)
    (hstarting : ∀ id, next.Starting id ↔ system.Starting id)
    (hunmarked : ∀ id, next.InStage id .unmarked ↔ system.InStage id .unmarked) :
    Marked next := by
  constructor
  · intro id hid
    rw [hcontainers]
    exact hmarked.started id ((hstarting id).mp hid)
  · intro id hid
    rw [hunmarked]
    exact hmarked.apart id ((hstarting id).mp hid)
  · intro id ⟨htracked, hnot, hquiet⟩
    rw [hrecording]
    rw [hcontainers] at htracked
    rw [hstarting] at hnot
    rw [hunmarked] at hquiet
    exact hmarked.recorded id ⟨htracked, hnot, hquiet⟩
  · intro key hkey
    rw [hrecording] at hkey
    obtain ⟨id, htracked, hid, hquiet⟩ := hmarked.tracked key hkey
    refine ⟨id, hcontainers ▸ htracked, hid, ?_⟩
    rwa [hunmarked]

variable {moved was : Option (ContainerId × Stage)}

theorem starting_iff_of_ne (hsteps : system.Steps next call moved)
    (hwas : system.stageAt call = was)
    (hmoved : moved ≠ some (id, .tracked) ∧ moved ≠ some (id, .traced))
    (hbefore : was ≠ some (id, .tracked) ∧ was ≠ some (id, .traced)) :
    next.Starting id ↔ system.Starting id :=
  or_congr (System.inStage_iff_of_ne hsteps hwas hmoved.1 hbefore.1)
    (System.inStage_iff_of_ne hsteps hwas hmoved.2 hbefore.2)

/-- A start that begins to trace is still under way. -/
theorem starting_iff_of_trace (hwas : system.stageAt call = some (id, .tracked))
    (hsteps : system.Steps next call (some (id, .traced))) (other : ContainerId) :
    next.Starting other ↔ system.Starting other := by
  by_cases hother : other = id
  · subst hother
    exact iff_of_true (.inr ⟨call, by rw [hsteps call, if_pos rfl]⟩) (.inl ⟨call, hwas⟩)
  · exact starting_iff_of_ne hsteps hwas (by simp [Ne.symm hother]) (by simp [Ne.symm hother])

/-- The container is tracked, and its start is under way. -/
theorem Marked.track {attach : Bool} (hmarked : Marked system)
    (hwas : system.stageAt call = none) (hsteps : system.Steps next call (some (id, .tracked)))
    (hcontainers : next.world.containers = system.world.containers.insert id ⟨true, attach⟩)
    (hfinalizer : next.world.finalizer = system.world.finalizer)
    (hapart : ¬ system.InStage id .unmarked) : Marked next := by
  have hunmarked : ∀ other, next.InStage other .unmarked ↔ system.InStage other .unmarked :=
    fun other => System.inStage_iff_of_ne hsteps hwas (by simp) (by simp)
  have hstarting : ∀ other, other ≠ id → (next.Starting other ↔ system.Starting other) :=
    fun other hother => starting_iff_of_ne hsteps hwas (by simp [hother.symm]) (by simp)
  -- The container is starting now, so its pod need not be recorded yet.
  have hnow : next.Starting id := .inl ⟨call, by rw [hsteps call, if_pos rfl]⟩
  constructor
  · intro other hother
    rw [hcontainers, Finmap.mem_insert]
    by_cases heq : other = id
    · exact .inl heq
    · exact .inr (hmarked.started other ((hstarting other heq).mp hother))
  · intro other hother
    rw [hunmarked]
    by_cases heq : other = id
    · exact heq ▸ hapart
    · exact hmarked.apart other ((hstarting other heq).mp hother)
  · intro other ⟨htracked, hnot, hquiet⟩
    have heq : other ≠ id := by
      intro heq
      exact hnot (heq ▸ hnow)
    rw [hcontainers, Finmap.mem_insert] at htracked
    rw [hstarting other heq] at hnot
    rw [hunmarked] at hquiet
    rw [hfinalizer]
    exact hmarked.recorded other ⟨htracked.resolve_left heq, hnot, hquiet⟩
  · intro key hkey
    rw [hfinalizer] at hkey
    obtain ⟨other, htracked, hother, hquiet⟩ := hmarked.tracked key hkey
    refine ⟨other, ?_, hother, ?_⟩
    · rw [hcontainers, Finmap.mem_insert]
      exact .inr htracked
    · rwa [hunmarked]

/-- The start sets the mark and returns. -/
theorem Marked.record (hmarked : Marked system)
    (hwas : system.stageAt call = some (id, .traced)) (hsteps : system.Steps next call none)
    (hcontainers : next.world.containers = system.world.containers)
    (hfinalizer : next.world.finalizer =
      system.world.finalizer.setRecording id.podName id.nameSpace) : Marked next := by
  have hunmarked : ∀ other, next.InStage other .unmarked ↔ system.InStage other .unmarked :=
    fun other => System.inStage_iff_of_ne hsteps hwas (by simp) (by simp)
  have hstarting : ∀ other, next.Starting other → system.Starting other := by
    intro other hother
    exact hother.imp (fun h => (hsteps.inStage h).resolve_left (by simp))
      fun h => (hsteps.inStage h).resolve_left (by simp)
  have hwasStarting : system.Starting id := .inr ⟨call, hwas⟩
  -- The mark is set under the key of the pod; other keys keep theirs.
  have hrecording : ∀ key, next.world.finalizer.recordingAt key =
      if key = id.tableKey then true else system.world.finalizer.recordingAt key := by
    intro key
    rw [hfinalizer, Finalizer.recordingAt_setRecording]
    rfl
  constructor
  · intro other hother
    rw [hcontainers]
    exact hmarked.started other (hstarting other hother)
  · intro other hother
    rw [hunmarked]
    exact hmarked.apart other (hstarting other hother)
  · intro other ⟨htracked, hnot, hquiet⟩
    rw [hrecording]
    split
    · rfl
    next hkey =>
      have heq : other ≠ id := by
        intro heq
        exact hkey (congrArg ContainerId.tableKey heq)
      rw [hcontainers] at htracked
      rw [starting_iff_of_ne hsteps hwas (by simp) (by simp [heq.symm])] at hnot
      rw [hunmarked] at hquiet
      exact hmarked.recorded other ⟨htracked, hnot, hquiet⟩
  · intro key hkey
    rw [hrecording] at hkey
    split at hkey
    next heq =>
      refine ⟨id, ?_, heq.symm, ?_⟩
      · rw [hcontainers]
        exact hmarked.started id hwasStarting
      · rw [hunmarked]
        exact hmarked.apart id hwasStarting
    next =>
      obtain ⟨other, htracked, hother, hquiet⟩ := hmarked.tracked key hkey
      refine ⟨other, ?_, hother, ?_⟩
      · rwa [hcontainers]
      · rwa [hunmarked]

/-- The mark of the container's pod is cleared, and no other. -/
def Clears (system next : System) (id : ContainerId) : Prop :=
  ∀ key, next.world.finalizer.recordingAt key =
    if key = id.tableKey then false else system.world.finalizer.recordingAt key

/-- Clearing the mark for the last container of a pod concerns no other settled one. -/
theorem Clears.recordingAt {other : ContainerId} (hclears : Clears system next id)
    (hlast : system.LastOfPod id) (hsettled : system.Settled other) (hother : other ≠ id) :
    next.world.finalizer.recordingAt other.tableKey =
      system.world.finalizer.recordingAt other.tableKey := by
  rw [hclears, if_neg]
  intro hkey
  exact hother (hlast.2 other (Finmap.mem_keys.mpr hsettled.1) hsettled hkey)

/-- What is still marked was marked for the sake of another container. -/
theorem Clears.tracked {key : String} (hclears : Clears system next id)
    (hmarked : Marked system) (hkey : next.world.finalizer.recordingAt key = true) :
    ∃ other, other ≠ id ∧ other ∈ system.world.containers ∧ other.tableKey = key ∧
      ¬ system.InStage other .unmarked := by
  rw [hclears] at hkey
  split at hkey
  · cases hkey
  next hne =>
    obtain ⟨other, htracked, hother, hquiet⟩ := hmarked.tracked key hkey
    refine ⟨other, ?_, htracked, hother, hquiet⟩
    intro heq
    exact hne (heq ▸ hother.symm)

/-- A stop untracks the last container of its pod. -/
theorem Marked.stop (hmarked : Marked system) (hlast : system.LastOfPod id)
    (hstages : ∀ call, next.stageAt call = system.stageAt call)
    (hcontainers : next.world.containers = system.world.containers.erase id)
    (hclears : Clears system next id) : Marked next := by
  have hstage := System.inStage_congr hstages
  have hstarting : ∀ other, next.Starting other ↔ system.Starting other := fun other =>
    or_congr (hstage other .tracked) (hstage other .traced)
  constructor
  · intro other hother
    rw [hstarting] at hother
    rw [hcontainers, Finmap.mem_erase]
    exact ⟨fun heq => hlast.1 (heq ▸ hother), hmarked.started other hother⟩
  · intro other hother
    rw [hstage]
    exact hmarked.apart other ((hstarting other).mp hother)
  · intro other ⟨htracked, hnot, hquiet⟩
    rw [hcontainers, Finmap.mem_erase] at htracked
    rw [hstarting] at hnot
    rw [hstage] at hquiet
    have hsettled : system.Settled other := ⟨htracked.2, hnot, hquiet⟩
    rw [hclears.recordingAt hlast hsettled htracked.1]
    exact hmarked.recorded other hsettled
  · intro key hkey
    obtain ⟨other, hne, htracked, hother, hquiet⟩ := hclears.tracked hmarked hkey
    refine ⟨other, ?_, hother, ?_⟩
    · rw [hcontainers, Finmap.mem_erase]
      exact ⟨hne, htracked⟩
    · rwa [hstage]

/-- A pass clears the mark before it untracks the last container of the pod. -/
theorem Marked.unmark (hmarked : Marked system) (hlast : system.LastOfPod id)
    (hwas : system.stageAt call = some (id, .untraced))
    (hsteps : system.Steps next call (some (id, .unmarked)))
    (hcontainers : next.world.containers = system.world.containers)
    (hclears : Clears system next id) : Marked next := by
  have hstarting : ∀ other, next.Starting other ↔ system.Starting other := fun other =>
    starting_iff_of_ne hsteps hwas (by simp) (by simp)
  have hunmarked : ∀ other, other ≠ id →
      (next.InStage other .unmarked ↔ system.InStage other .unmarked) := fun other hother =>
    System.inStage_iff_of_ne hsteps hwas (by simp [hother.symm]) (by simp)
  have hnow : next.InStage id .unmarked := ⟨call, by rw [hsteps call, if_pos rfl]⟩
  constructor
  · intro other hother
    rw [hcontainers]
    exact hmarked.started other ((hstarting other).mp hother)
  · intro other hother
    rw [hstarting] at hother
    have hne : other ≠ id := fun heq => hlast.1 (heq ▸ hother)
    rw [hunmarked other hne]
    exact hmarked.apart other hother
  · intro other ⟨htracked, hnot, hquiet⟩
    have hne : other ≠ id := fun heq => hquiet (heq ▸ hnow)
    rw [hcontainers] at htracked
    rw [hstarting] at hnot
    rw [hunmarked other hne] at hquiet
    have hsettled : system.Settled other := ⟨htracked, hnot, hquiet⟩
    rw [hclears.recordingAt hlast hsettled hne]
    exact hmarked.recorded other hsettled
  · intro key hkey
    obtain ⟨other, hne, htracked, hother, hquiet⟩ := hclears.tracked hmarked hkey
    refine ⟨other, ?_, hother, ?_⟩
    · rwa [hcontainers]
    · rwa [hunmarked other hne]

/-- The pass untracks the container whose mark it cleared. -/
theorem Marked.untrack (hmarked : Marked system)
    (hwas : system.stageAt call = some (id, .unmarked)) (hsteps : system.Steps next call none)
    (hcontainers : next.world.containers = system.world.containers.erase id)
    (hfinalizer : next.world.finalizer = system.world.finalizer) : Marked next := by
  have hstarting : ∀ other, next.Starting other ↔ system.Starting other := fun other =>
    starting_iff_of_ne hsteps hwas (by simp) (by simp)
  have hwasUnmarked : system.InStage id .unmarked := ⟨call, hwas⟩
  have hunmarked : ∀ other, next.InStage other .unmarked → system.InStage other .unmarked :=
    fun other hother => (hsteps.inStage hother).resolve_left (by simp)
  constructor
  · intro other hother
    rw [hstarting] at hother
    rw [hcontainers, Finmap.mem_erase]
    exact ⟨fun heq => hmarked.apart other hother (heq ▸ hwasUnmarked),
      hmarked.started other hother⟩
  · intro other hother hquiet
    exact hmarked.apart other ((hstarting other).mp hother) (hunmarked other hquiet)
  · intro other ⟨htracked, hnot, hquiet⟩
    rw [hcontainers, Finmap.mem_erase] at htracked
    rw [hstarting] at hnot
    rw [System.inStage_iff_of_ne hsteps hwas (by simp) (by simp [htracked.1.symm])] at hquiet
    rw [hfinalizer]
    exact hmarked.recorded other ⟨htracked.2, hnot, hquiet⟩
  · intro key hkey
    rw [hfinalizer] at hkey
    obtain ⟨other, htracked, hother, hquiet⟩ := hmarked.tracked key hkey
    refine ⟨other, ?_, hother, fun hnow => hquiet (hunmarked other hnow)⟩
    rw [hcontainers, Finmap.mem_erase]
    exact ⟨fun heq => hquiet (heq ▸ hwasUnmarked), htracked⟩

end Moves

theorem marked_step {system next : System} {label : Label}
    (htime : config.interval < config.finalizeTime) (hmarked : Marked system)
    (hfound : PodsFound system label) (hapart : MarksApart system label)
    (hstep : step config system label = some next) : Marked next := by
  cases moves_of_step hstep with
  | idle hworld hstages =>
      exact hmarked.of_same hworld.containers hworld.recording
        (fun id => or_congr (System.inStage_congr hstages id _) (System.inStage_congr hstages id _))
        fun id => System.inStage_congr hstages id _
  | track id attach hcall hsteps hworld =>
      have hapart : ¬ system.InStage id .unmarked := hapart _ hcall
      exact hmarked.track (congrArg (·.bind Call.stage) hcall) hsteps (by rw [hworld]; rfl)
        (by rw [hworld]; rfl) hapart
  | trace id hstage hsteps hworld =>
      refine hmarked.of_same (by rw [hworld]; rfl) (fun key => by rw [hworld]; rfl) ?_
        fun other => System.inStage_iff_of_ne hsteps hstage (by simp) (by simp)
      exact starting_iff_of_trace hstage hsteps
  | giveUp id hstage hgivesUp hsteps hworld =>
      rcases hgivesUp with hshort | ⟨hcall, hmissing⟩
      -- The finalization time is longer than the interval: the first reason to give up is ruled
      -- out.
      · have hpositive : 0 < config.finalizeTime := by
          rw [UInt64.lt_iff_toNat_lt] at htime ⊢
          exact Nat.zero_lt_of_lt htime
        exact absurd ⟨hpositive, htime⟩ hshort
      · have hsome : (_ : Option Pod).isSome = true := hfound _ hcall
        rw [hmissing] at hsome
        cases hsome
  | record id hstage hsteps hworld =>
      exact hmarked.record hstage hsteps (by rw [hworld]) (by rw [hworld])
  | stop id htracked hstages hworld =>
      refine hmarked.stop (hapart htracked) hstages hworld.containers ?_
      intro key
      rw [hworld.recording]
      exact Finalizer.recordingAt_markPodNotRecording ..
  | unfilter id exit hcall hsteps hworld =>
      have hstage : system.stageAt _ = none := congrArg (·.bind Call.stage) hcall
      exact hmarked.of_same (by rw [hworld]; rfl) (fun key => by rw [hworld]; rfl)
        (fun other => starting_iff_of_ne hsteps hstage (by simp) (by simp))
        fun other => System.inStage_iff_of_ne hsteps hstage (by simp) (by simp)
  | untrace id exit hcall hsteps hworld =>
      have hstage : system.stageAt _ = some (id, .unfiltered) :=
        congrArg (·.bind Call.stage) hcall
      exact hmarked.of_same (by rw [hworld]; rfl) (fun key => by rw [hworld]; rfl)
        (fun other => starting_iff_of_ne hsteps hstage (by simp) (by simp))
        fun other => System.inStage_iff_of_ne hsteps hstage (by simp) (by simp)
  | unmark id exit hcall hsteps hworld =>
      have hlast : system.LastOfPod id := hapart _ hcall
      refine hmarked.unmark hlast (congrArg (·.bind Call.stage) hcall) hsteps
        (by rw [hworld]; rfl) ?_
      intro key
      rw [hworld]
      exact Finalizer.recordingAt_markPodNotRecording ..
  | untrack id hstage hsteps hworld =>
      exact hmarked.untrack hstage hsteps (by rw [hworld]; rfl) (by rw [hworld]; rfl)

theorem LabelChange.launches_start {world after : World} {label : Label}
    {launched : List Call} {id : ContainerId} {attach : Bool} {state : StartState}
    (hchange : LabelChange config world label after launched)
    (hcall : Call.containerStarted id attach state ∈ launched) :
    label = .containerStarted id attach := by
  cases hchange with
  | started => simp at hcall; rw [hcall.1, hcall.2.1]
  | stopped => simp at hcall
  | expired => simp at hcall
  | sink => simp at hcall
  | finalizer _ hlaunched => cases hlaunched _ hcall

/-- Only containers of the given pods are started or tracked. -/
structure Known (pods : Set (String × String)) (system : System) : Prop where
  started : ∀ id attach state, Call.containerStarted id attach state ∈ system.calls →
    (id.podName, id.nameSpace) ∈ pods
  tracked : ∀ id ∈ system.world.containers, (id.podName, id.nameSpace) ∈ pods

theorem known_step {pods : Set (String × String)} {system next : System} {label : Label}
    (hknown : Known pods system)
    (hlabel : ∀ id attach, label = .containerStarted id attach →
      (id.podName, id.nameSpace) ∈ pods)
    (hstep : step config system label = some next) : Known pods next := by
  constructor
  · intro id attach state hmem
    rcases step_cases hstep with
      ⟨call, answers, current, after, _, hcurrent, hcall, hcalls⟩ | ⟨launched, hchange, hcalls⟩
    · rw [hcalls] at hmem
      rcases List.mem_or_eq_of_mem_set hmem with hold | rfl
      · exact hknown.started id attach state hold
      · rcases Call.step_cases hcall with
          ⟨_, _, _, _, rfl, _, heq, _⟩ | ⟨_, _, _, _, heq, _⟩ | ⟨_, _, _, heq, _⟩ |
          ⟨_, _, _, heq, _⟩ <;> cases heq
        exact hknown.started _ _ _ (List.mem_of_getElem? hcurrent)
    · rw [hcalls] at hmem
      rcases List.mem_append.mp hmem with hold | hnew
      · exact hknown.started id attach state hold
      · exact hlabel id attach (hchange.launches_start hnew)
  · intro id htracked
    cases moves_of_step hstep with
    | track started attach hcall hsteps hworld =>
        rw [hworld] at htracked
        rcases Finmap.mem_insert.mp htracked with rfl | hold
        · exact hknown.started _ _ _ (List.mem_of_getElem? hcall)
        · exact hknown.tracked id hold
    | stop stopped _ hstages hworld =>
        rw [hworld.containers] at htracked
        exact hknown.tracked id (Finmap.mem_erase.mp htracked).2
    | untrack untracked _ hsteps hworld =>
        rw [hworld] at htracked
        exact hknown.tracked id (Finmap.mem_erase.mp htracked).2
    | idle hworld _ => exact hknown.tracked id (hworld.containers ▸ htracked)
    | giveUp _ _ _ _ hworld => exact hknown.tracked id (hworld.containers ▸ htracked)
    | trace _ _ _ hworld | record _ _ _ hworld | unfilter _ _ _ _ hworld
    | untrace _ _ _ _ hworld | unmark _ _ _ _ hworld =>
        rw [hworld] at htracked
        exact hknown.tracked id htracked

theorem known_initial {pods : Set (String × String)} {system : System}
    (hinit : Initial system) : Known pods system := by
  obtain ⟨hcontainers, _, _, _, hcalls⟩ := hinit
  constructor
  · intro id attach state hmem
    rw [hcalls] at hmem
    cases hmem
  · intro id htracked
    rw [hcontainers] at htracked
    exact absurd htracked Finmap.notMem_empty

/-! ## Whole runs -/

/-- An update that reports a recorded pod ready leaves it with a timer. -/
theorem Finalizer.handlePodUpdateEvent_recording {finalizer : Finalizer} {pod : Pod}
    (hjitter : config.JitterPositive)
    (hrecording : finalizer.recordingAt (generateTableKey pod.name pod.nameSpace) = true)
    (hready : pod.ready = true) :
    ∃ next state, finalizer.handlePodUpdateEvent config pod = some next ∧
      next.podFinalizerState.lookup (generateTableKey pod.name pod.nameSpace) = some state ∧
      state.finalizationTimer.isSome = true := by
  unfold handlePodUpdateEvent
  cases hstate : finalizer.podFinalizerState.lookup
    (generateTableKey pod.name pod.nameSpace) with
  | none =>
      rw [recordingAt_of_none hstate] at hrecording
      cases hrecording
  | some state =>
      rw [recordingAt_of_some hstate] at hrecording
      simp only [hrecording, hready, if_true]
      cases htimer : state.finalizationTimer with
      | some timer => exact ⟨finalizer, state, rfl, hstate, by rw [htimer]; rfl⟩
      | none =>
          unfold startFinalizationTimer
          unfold CollectorManagerConfig.JitterPositive at hjitter
          rw [if_pos hjitter]
          exact ⟨_, _, rfl, Finmap.lookup_insert _, rfl⟩

theorem marked_initial {system : System} (hinit : Initial system) : Marked system := by
  have hnone := hinit.quiescent.not_inStage
  obtain ⟨hcontainers, _, _, hfinalizer, _⟩ := hinit
  have hrecording : ∀ key, system.world.finalizer.recordingAt key = false := by
    intro key
    rw [hfinalizer]
    exact Finalizer.recordingAt_of_none (Finmap.lookup_empty _)
  constructor
  · intro id hstarting
    exact absurd hstarting (not_or.mpr ⟨hnone id _, hnone id _⟩)
  · intro id _
    exact hnone id _
  · intro id ⟨htracked, _⟩
    rw [hcontainers] at htracked
    exact absurd htracked Finmap.notMem_empty
  · intro key hkey
    rw [hrecording] at hkey
    cases hkey

/-- The marks mirror the tracked containers whenever no call is in progress, in every run in
which a pod's mark is cleared for its last container only. -/
theorem recordingMirrors_of_marksApart {pods : Set (String × String)} {start last : System}
    {labels : List Label} (htime : config.interval < config.finalizeTime)
    (hkeys : Set.InjOn (fun pod : String × String => generateTableKey pod.1 pod.2) pods)
    (hinit : Initial start)
    (hstarts : ∀ id attach, Label.containerStarted id attach ∈ labels →
      (id.podName, id.nameSpace) ∈ pods)
    (hfound : (machine config).Along PodsFound start labels)
    (hapart : (machine config).Along MarksApart start labels)
    (hrun : (machine config).run start labels = some last) (hquiet : last.Quiescent) :
    RecordingMirrors config pods last.world := by
  have hmarked : Marked last := by
    refine (machine config).run_invariant_along ?_ (marked_initial hinit)
      ((machine config).along_and.mpr ⟨hfound, hapart⟩) hrun
    intro system label next hmarked hmeets hstep
    exact marked_step htime hmarked hmeets.1 hmeets.2 hstep
  have hknown : Known pods last := by
    refine (machine config).run_invariant_along ?_ (known_initial hinit)
      ((machine config).along_of_forall_mem fun _ label hmem => hmem) hrun
    intro system label next hknown hlabel hstep
    refine known_step hknown ?_ hstep
    rintro id attach rfl
    exact hstarts id attach hlabel
  have hmirrors : ∀ name nameSpace, (name, nameSpace) ∈ pods →
      (last.world.finalizer.recordingAt (generateTableKey name nameSpace) = true ↔
        last.world.Tracks name nameSpace) := by
    intro name nameSpace hpod
    constructor
    · intro hrecording
      obtain ⟨id, htracked, hkey, _⟩ := hmarked.tracked _ hrecording
      -- Keys join the names, so the pods must be told apart by them.
      have heq := hkeys (hknown.tracked id htracked) hpod hkey
      exact ⟨id, htracked, congrArg Prod.fst heq, congrArg Prod.snd heq⟩
    · rintro ⟨id, htracked, rfl, rfl⟩
      refine hmarked.recorded id ⟨htracked, ?_, hquiet.not_inStage id _⟩
      exact not_or.mpr ⟨hquiet.not_inStage id _, hquiet.not_inStage id _⟩
  refine ⟨hmirrors, ?_⟩
  intro pod hjitter hpod hready htracks
  exact Finalizer.handlePodUpdateEvent_recording hjitter ((hmirrors _ _ hpod).mpr htracks) hready

/-- A second container of the pod. -/
def shipper : ContainerId := { nginx with container := "shipper", containerID := "1234567891" }

/-- The pod's first container is stopped, and collected once more, while its second is being
started: the mark is cleared and set again. -/
def startedAndStopped : List Label :=
  .containerStarted nginx false :: .replicate 7 (.advance 0 {}) ++
    .containerStarted shipper false :: .replicate 3 (.advance 1 {}) ++
    [.containerStopped nginx, .advance 2 {}] ++ .replicate 4 (.advance 1 {})

theorem startedAndStopped_mirrors :
    ∃ last, (machine mainConfig).run freshSystem startedAndStopped = some last ∧
      (nginx ∉ last.world.containers ∧ shipper ∈ last.world.containers) ∧
      RecordingMirrors mainConfig {("nginx", "default")} last.world := by
  have hends : ((machine mainConfig).run freshSystem startedAndStopped).map
      (fun last => (decide last.Quiescent, decide (nginx ∉ last.world.containers),
        decide (shipper ∈ last.world.containers))) = some (true, true, true) := by decide
  obtain ⟨last, hrun, hlast⟩ := Option.map_eq_some_iff.mp hends
  simp only [Prod.mk.injEq, decide_eq_true_eq] at hlast
  obtain ⟨hquiet, hstopped, htracked⟩ := hlast
  refine ⟨last, hrun, ⟨hstopped, htracked⟩, ?_⟩
  refine recordingMirrors_of_marksApart (by decide) (Set.injOn_singleton _ _)
    initial_freshSystem ?_ (by decide) (by decide) hrun hquiet
  intro id attach hmem
  simp [startedAndStopped] at hmem
  rcases hmem with hmem | hmem <;> rw [hmem.1] <;> rfl

/-- The pod's second container is started after the first, and stopped before it. -/
def shipperStopped : List Label :=
  .containerStarted nginx false :: .replicate 7 (.advance 0 {}) ++
    .containerStarted shipper false :: .replicate 7 (.advance 1 {}) ++
    [.containerStopped shipper, .advance 2 {}]

theorem shipperStopped_clears_mark :
    ¬ ∀ (config : CollectorManagerConfig) (pods : Set (String × String)) (start last : System)
      (labels : List Label), config.interval < config.finalizeTime →
      Set.InjOn (fun pod : String × String => generateTableKey pod.1 pod.2) pods →
      Initial start →
      (∀ id attach, Label.containerStarted id attach ∈ labels →
        (id.podName, id.nameSpace) ∈ pods) →
      (machine config).Along PodsFound start labels →
      (machine config).run start labels = some last → last.Quiescent →
      RecordingMirrors config pods last.world := by
  intro hclaim
  have hends : ((machine mainConfig).run freshSystem shipperStopped).map
      (fun last => (last.world.finalizer.recordingAt "nginx-default",
        decide (nginx ∈ last.world.containers), decide last.Quiescent)) =
      some (false, true, true) := by decide
  obtain ⟨last, hrun, hlast⟩ := Option.map_eq_some_iff.mp hends
  simp only [Prod.mk.injEq, decide_eq_true_eq] at hlast
  obtain ⟨hcleared, htracked, hquiet⟩ := hlast
  have hmirrors := hclaim mainConfig {("nginx", "default")} freshSystem last shipperStopped
    (by decide) (Set.injOn_singleton _ _) initial_freshSystem ?_ (by decide) hrun hquiet
  · have hrecording := (hmirrors.mirrors "nginx" "default" rfl).mpr ⟨nginx, htracked, rfl, rfl⟩
    rw [show generateTableKey "nginx" "default" = "nginx-default" from rfl, hcleared]
      at hrecording
    cases hrecording
  · intro id attach hmem
    simp [shipperStopped] at hmem
    rcases hmem with hmem | hmem <;> rw [hmem.1] <;> rfl

end Kapprofiler.Collector
