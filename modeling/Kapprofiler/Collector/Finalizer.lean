import Mathlib.Logic.Function.Basic
import Kapprofiler.Collector.Profile

/-! # The pod finalizer

The table and the timers of `pkg/collector/pod_finalizer.go`. Timers are named
by the order they were started in; an armed timer knows the pod it finalizes.
-/

namespace Kapprofiler.Collector

structure PodProfileFinalizerState where
  podName : String
  nameSpace : String
  finalizationTimer : Option Nat := none
  recording : Bool := false
  deriving DecidableEq

structure Finalizer where
  podFinalizerState : Finmap fun _ : String => PodProfileFinalizerState
  timers : Nat → Option Pod
  nextTimer : Nat

def generateTableKey (name nameSpace : String) : String := name ++ "-" ++ nameSpace

namespace Finalizer

def empty : Finalizer := ⟨∅, fun _ => none, 0⟩

/-- `rand.Intn(int(FinalizeJitter))` panics unless its argument is positive. -/
def startFinalizationTimer (config : CollectorManagerConfig) (finalizer : Finalizer)
    (pod : Pod) : Option (Nat × Finalizer) :=
  if 0 < config.finalizeJitter.toNat ∧ config.finalizeJitter.toNat < 2 ^ 63 then
    some (finalizer.nextTimer,
      { finalizer with
        timers := Function.update finalizer.timers finalizer.nextTimer (some pod)
        nextTimer := finalizer.nextTimer + 1 })
  else none

def setState (finalizer : Finalizer) (key : String) (state : PodProfileFinalizerState) :
    Finalizer :=
  { finalizer with podFinalizerState := finalizer.podFinalizerState.insert key state }

/-- The timer started for a pod that is already in the table is not stored. -/
def handlePodAddEvent (config : CollectorManagerConfig) (finalizer : Finalizer) (pod : Pod) :
    Option Finalizer :=
  match finalizer.podFinalizerState.lookup (generateTableKey pod.name pod.nameSpace) with
  | none => some (finalizer.setState (generateTableKey pod.name pod.nameSpace)
      { podName := pod.name, nameSpace := pod.nameSpace })
  | some _ =>
      if pod.ready then (finalizer.startFinalizationTimer config pod).map (·.2)
      else some finalizer

def stopTimer (finalizer : Finalizer) (name nameSpace : String) : Finalizer :=
  match finalizer.podFinalizerState.lookup (generateTableKey name nameSpace) with
  | none => finalizer
  | some state =>
      match state.finalizationTimer with
      | none => finalizer
      | some timer =>
          { finalizer.setState (generateTableKey name nameSpace)
              { state with finalizationTimer := none } with
            timers := Function.update finalizer.timers timer none }

def handlePodUpdateEvent (config : CollectorManagerConfig) (finalizer : Finalizer) (pod : Pod) :
    Option Finalizer :=
  match finalizer.podFinalizerState.lookup (generateTableKey pod.name pod.nameSpace) with
  | none => some finalizer
  | some state =>
      if state.recording then
        if pod.ready then
          if state.finalizationTimer.isSome then some finalizer
          else (finalizer.startFinalizationTimer config pod).map fun started =>
            started.2.setState (generateTableKey pod.name pod.nameSpace)
              { state with finalizationTimer := some started.1 }
        else some (finalizer.stopTimer pod.name pod.nameSpace)
      else some finalizer

/-- The last part of `MarkPodRecording`. -/
def setRecording (finalizer : Finalizer) (name nameSpace : String) : Finalizer :=
  match finalizer.podFinalizerState.lookup (generateTableKey name nameSpace) with
  | none => finalizer.setState (generateTableKey name nameSpace)
      { podName := name, nameSpace := nameSpace, recording := true }
  | some state => finalizer.setState (generateTableKey name nameSpace)
      { state with recording := true }

def markPodNotRecording (finalizer : Finalizer) (name nameSpace : String) : Finalizer :=
  match finalizer.podFinalizerState.lookup (generateTableKey name nameSpace) with
  | none => finalizer
  | some state => finalizer.setState (generateTableKey name nameSpace)
      { state with recording := false }

/-- A timer that fires is no longer armed; the table still points to it. -/
def expire (finalizer : Finalizer) (timer : Nat) : Finalizer :=
  { finalizer with timers := Function.update finalizer.timers timer none }

theorem startFinalizationTimer_eq {config : CollectorManagerConfig} {finalizer : Finalizer}
    {pod : Pod} {started : Nat × Finalizer}
    (hstart : finalizer.startFinalizationTimer config pod = some started) :
    started.2 = { finalizer with
      timers := Function.update finalizer.timers finalizer.nextTimer (some pod)
      nextTimer := finalizer.nextTimer + 1 } := by
  unfold startFinalizationTimer at hstart
  split at hstart
  · cases hstart
    rfl
  · cases hstart

theorem startFinalizationTimer_fst {config : CollectorManagerConfig} {finalizer : Finalizer}
    {pod : Pod} {started : Nat × Finalizer}
    (hstart : finalizer.startFinalizationTimer config pod = some started) :
    started.1 = finalizer.nextTimer := by
  unfold startFinalizationTimer at hstart
  split at hstart
  · cases hstart
    rfl
  · cases hstart

/-- What an update of the pod can leave the finalizer as. -/
inductive PodUpdated (config : CollectorManagerConfig) (finalizer : Finalizer) (pod : Pod) :
    Finalizer → Prop
  | notRecording
      (hrecording : ∀ state, finalizer.podFinalizerState.lookup
        (generateTableKey pod.name pod.nameSpace) = some state → state.recording = false) :
      PodUpdated config finalizer pod finalizer
  | timerRunning (hready : pod.ready = true) : PodUpdated config finalizer pod finalizer
  | started {state : PodProfileFinalizerState} {started : Nat × Finalizer}
      (hready : pod.ready = true)
      (hstate : finalizer.podFinalizerState.lookup (generateTableKey pod.name pod.nameSpace) =
        some state)
      (hstart : finalizer.startFinalizationTimer config pod = some started) :
      PodUpdated config finalizer pod
        (started.2.setState (generateTableKey pod.name pod.nameSpace)
          { state with finalizationTimer := some started.1 })
  | stopped {state : PodProfileFinalizerState}
      (hstate : finalizer.podFinalizerState.lookup (generateTableKey pod.name pod.nameSpace) =
        some state)
      (hrecording : state.recording = true) :
      PodUpdated config finalizer pod (finalizer.stopTimer pod.name pod.nameSpace)

theorem handlePodUpdateEvent_cases {config : CollectorManagerConfig} {finalizer next : Finalizer}
    {pod : Pod} (hupdate : finalizer.handlePodUpdateEvent config pod = some next) :
    PodUpdated config finalizer pod next := by
  unfold handlePodUpdateEvent at hupdate
  cases hstate : finalizer.podFinalizerState.lookup
    (generateTableKey pod.name pod.nameSpace) with
  | none =>
      simp only [hstate, Option.some.injEq] at hupdate
      subst hupdate
      refine .notRecording fun state hsome => ?_
      rw [hstate] at hsome
      cases hsome
  | some state =>
      simp only [hstate] at hupdate
      by_cases hrecording : state.recording = true
      · rw [if_pos hrecording] at hupdate
        by_cases hready : pod.ready = true
        · rw [if_pos hready] at hupdate
          split at hupdate
          · cases hupdate
            exact .timerRunning hready
          · obtain ⟨started, hstart, rfl⟩ := Option.map_eq_some_iff.mp hupdate
            exact .started hready hstate hstart
        · rw [if_neg hready] at hupdate
          cases hupdate
          exact .stopped hstate hrecording
      · rw [if_neg hrecording] at hupdate
        cases hupdate
        refine .notRecording fun other hsome => ?_
        obtain rfl := Option.some.inj (hstate.symm.trans hsome)
        exact Bool.eq_false_iff.mpr hrecording

end Finalizer

end Kapprofiler.Collector
