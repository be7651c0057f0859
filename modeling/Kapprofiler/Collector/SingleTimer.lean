import Kapprofiler.Collector.FinalizationTimers

/-! # The recorded timer of a pod

The table should point to the one finalization timer that is pending for a pod, and to
none if there is none. Of the three callers that start a timer only the update of a pod
stores it, a timer that fires leaves the pointer to it behind, and pods of one key share
their entry.
-/

namespace Kapprofiler.Collector

open Foundation

variable {config : CollectorManagerConfig} {finalizer next : Finalizer}
  {pods : Set (String × String)}

namespace Finalizer

/-- `podFinalizerState[key].FinalizationTimer`, nil for a pod without an entry. -/
def storedTimer (finalizer : Finalizer) (key : String) : Option Nat :=
  (finalizer.podFinalizerState.lookup key).bind (·.finalizationTimer)

/-- A pod has at most one pending timer, and the entry of each of the pods points to a
timer exactly as long as it is the pending one of the pod. -/
structure SingleTimer (pods : Set (String × String)) (finalizer : Finalizer) : Prop where
  single : ∀ first second pod other, finalizer.timers first = some pod →
    finalizer.timers second = some other → pod.name = other.name →
    pod.nameSpace = other.nameSpace → first = second
  stored : ∀ name nameSpace, (name, nameSpace) ∈ pods → ∀ timer,
    finalizer.storedTimer (generateTableKey name nameSpace) = some timer ↔
      ∃ pod, finalizer.timers timer = some pod ∧ pod.name = name ∧ pod.nameSpace = nameSpace

/-- Every pending timer has been started, for one of the pods. -/
def Started (pods : Set (String × String)) (finalizer : Finalizer) : Prop :=
  ∀ timer pod, finalizer.timers timer = some pod →
    timer < finalizer.nextTimer ∧ (pod.name, pod.nameSpace) ∈ pods

/-- The next timer, started for the pod. -/
def arm (finalizer : Finalizer) (pod : Pod) : Finalizer :=
  { finalizer with
    timers := Function.update finalizer.timers finalizer.nextTimer (some pod)
    nextTimer := finalizer.nextTimer + 1 }

/-- An update of the pod starts a timer. -/
def UpdateStarts (finalizer : Finalizer) (pod : Pod) : Prop :=
  pod.ready = true ∧ ∃ state, finalizer.podFinalizerState.lookup
    (generateTableKey pod.name pod.nameSpace) = some state ∧ state.recording = true ∧
      state.finalizationTimer = none

end Finalizer

/-- The pod that the call is about. -/
def FinalizerCall.about : FinalizerCall → Option (String × String)
  | .handlePodAddEvent pod | .handlePodUpdateEvent pod | .handlePodDeleteEvent pod
  | .markAttachedPod pod => some (pod.name, pod.nameSpace)
  | .setRecording name nameSpace | .markPodNotRecording name nameSpace => some (name, nameSpace)
  | .timerExpired _ => none

/-- A timer that the call starts is stored for its pod and for no other one, and none
fires. -/
def FinalizerCall.StoresTimers (pods : Set (String × String)) (finalizer : Finalizer) :
    FinalizerCall → Prop
  | .handlePodAddEvent pod => pod.ready = true →
      finalizer.podFinalizerState.lookup (generateTableKey pod.name pod.nameSpace) = none
  | .handlePodUpdateEvent pod => finalizer.UpdateStarts pod → ∀ name nameSpace,
      (name, nameSpace) ∈ pods →
      generateTableKey name nameSpace = generateTableKey pod.name pod.nameSpace →
      pod.name = name ∧ pod.nameSpace = nameSpace
  | .markAttachedPod pod => pod.ready = false
  | .timerExpired _ => False
  | .handlePodDeleteEvent _ | .setRecording .. | .markPodNotRecording .. => True

namespace Finalizer

/-! ## Stored timers -/

theorem storedTimer_of_lookup {key : String} {state : PodProfileFinalizerState}
    (hstate : finalizer.podFinalizerState.lookup key = some state) :
    finalizer.storedTimer key = state.finalizationTimer := by
  rw [storedTimer, hstate, Option.bind_some]

theorem storedTimer_of_missing {key : String}
    (hmissing : finalizer.podFinalizerState.lookup key = none) :
    finalizer.storedTimer key = none := by
  rw [storedTimer, hmissing, Option.bind_none]

theorem UpdateStarts.unstored {pod : Pod} (hstarts : finalizer.UpdateStarts pod) :
    finalizer.storedTimer (generateTableKey pod.name pod.nameSpace) = none := by
  obtain ⟨_, state, hstate, _, hnone⟩ := hstarts
  rw [storedTimer_of_lookup hstate, hnone]

theorem storedTimer_setState (key other : String) (state : PodProfileFinalizerState) :
    (finalizer.setState key state).storedTimer other =
      if other = key then state.finalizationTimer else finalizer.storedTimer other := by
  unfold storedTimer setState
  by_cases hother : other = key
  · subst hother
    simp
  · simp [hother, Finmap.lookup_insert_of_ne]

/-- An entry that is replaced by one with the same timer. -/
theorem storedTimer_setState_same {key : String} {state : PodProfileFinalizerState}
    (hsame : state.finalizationTimer = finalizer.storedTimer key) (other : String) :
    (finalizer.setState key state).storedTimer other = finalizer.storedTimer other := by
  rw [storedTimer_setState, hsame]
  split
  next hother => rw [hother]
  next => rfl

theorem storedTimer_stopTimer (name nameSpace key : String) :
    (finalizer.stopTimer name nameSpace).storedTimer key =
      if key = generateTableKey name nameSpace then none else finalizer.storedTimer key := by
  unfold stopTimer
  split
  next hmissing =>
    split
    next hkey => rw [hkey, storedTimer_of_missing hmissing]
    next => rfl
  next state hstate =>
    split
    next hnone =>
      split
      next hkey => rw [hkey, storedTimer_of_lookup hstate, hnone]
      next => rfl
    next timer _ => exact storedTimer_setState _ key _

/-- A stop disarms the stored timer. -/
theorem stopTimer_armed {name nameSpace : String} {timer : Nat} {pod : Pod} :
    (finalizer.stopTimer name nameSpace).timers timer = some pod ↔
      finalizer.timers timer = some pod ∧
        finalizer.storedTimer (generateTableKey name nameSpace) ≠ some timer := by
  rw [stopTimer_timers, storedTimer]
  cases finalizer.podFinalizerState.lookup (generateTableKey name nameSpace) <;> simp

end Finalizer

/-! ## What a call does -/

/-- What a call can leave the finalizer as. -/
inductive FinalizerCall.Effect (finalizer : Finalizer) (call : FinalizerCall) : Finalizer → Prop
  | kept (hstores : ∀ pods, call.StoresTimers pods finalizer) : Effect finalizer call finalizer
  | entered {name nameSpace : String} {state : PodProfileFinalizerState}
      (habout : call.about = some (name, nameSpace))
      (htimer : state.finalizationTimer =
        finalizer.storedTimer (generateTableKey name nameSpace))
      (hstores : ∀ pods, call.StoresTimers pods finalizer) :
      Effect finalizer call (finalizer.setState (generateTableKey name nameSpace) state)
  | stopped {name nameSpace : String} (habout : call.about = some (name, nameSpace))
      (hstores : ∀ pods, call.StoresTimers pods finalizer) :
      Effect finalizer call (finalizer.stopTimer name nameSpace)
  | armed {pod : Pod} (habout : call.about = some (pod.name, pod.nameSpace))
      (hunstored : ∀ pods, ¬ call.StoresTimers pods finalizer) :
      Effect finalizer call (finalizer.arm pod)
  | stored {pod : Pod} {state : PodProfileFinalizerState}
      (hcall : call = .handlePodUpdateEvent pod) (hstarts : finalizer.UpdateStarts pod)
      (htimer : state.finalizationTimer = some finalizer.nextTimer) :
      Effect finalizer call
        ((finalizer.arm pod).setState (generateTableKey pod.name pod.nameSpace) state)
  | expired {timer : Nat} {pod : Pod} (hcall : call = .timerExpired timer)
      (harmed : finalizer.timers timer = some pod) :
      Effect finalizer call (finalizer.expire timer)

open Finalizer

theorem FinalizerCall.effect_update {pod : Pod}
    (hupdate : finalizer.handlePodUpdateEvent config pod = some next) :
    Effect finalizer (.handlePodUpdateEvent pod) next := by
  unfold Finalizer.handlePodUpdateEvent at hupdate
  split at hupdate
  next hmissing =>
    cases hupdate
    refine .kept fun pods ⟨_, state, hstate, _⟩ => ?_
    rw [hmissing] at hstate
    cases hstate
  next state hstate =>
    split at hupdate
    next hrecording =>
      split at hupdate
      next hready =>
        split at hupdate
        next htimer =>
          cases hupdate
          refine .kept fun pods ⟨_, other, hother, _, hnone⟩ => ?_
          obtain rfl := Option.some.inj (hstate.symm.trans hother)
          rw [hnone] at htimer
          cases htimer
        next htimer =>
          obtain ⟨started, hstart, rfl⟩ := Option.map_eq_some_iff.mp hupdate
          rw [startFinalizationTimer_eq hstart]
          -- The only branch that stores the timer that it starts.
          refine .stored rfl ⟨hready, state, hstate, hrecording, ?_⟩ ?_
          · exact Option.not_isSome_iff_eq_none.mp htimer
          · rw [startFinalizationTimer_fst hstart]
      next hready =>
        cases hupdate
        exact .stopped rfl fun pods hstarts => absurd hstarts.1 hready
    next hrecording =>
      cases hupdate
      refine .kept fun pods ⟨_, other, hother, hrecorded, _⟩ => ?_
      obtain rfl := Option.some.inj (hstate.symm.trans hother)
      exact absurd hrecorded hrecording

/-- Every call has one of these effects. -/
theorem FinalizerCall.effect {call : FinalizerCall}
    (hcall : call.on config finalizer = some next) : Effect finalizer call next := by
  cases call with
  | handlePodAddEvent pod =>
      simp only [FinalizerCall.on, Finalizer.handlePodAddEvent] at hcall
      split at hcall
      next hmissing =>
        cases hcall
        refine .entered rfl ?_ fun _ _ => hmissing
        rw [storedTimer_of_missing hmissing]
      next state hstate =>
        split at hcall
        next hready =>
          obtain ⟨started, hstart, rfl⟩ := Option.map_eq_some_iff.mp hcall
          rw [startFinalizationTimer_eq hstart]
          -- The timer is started but not stored, so nothing can stop it later.
          refine .armed rfl fun _ hmissing => ?_
          rw [hmissing hready] at hstate
          cases hstate
        next hready =>
          cases hcall
          exact .kept fun _ h => absurd h hready
  | handlePodUpdateEvent pod => exact effect_update hcall
  | handlePodDeleteEvent pod =>
      cases hcall
      exact .stopped rfl fun _ => trivial
  | markAttachedPod pod =>
      simp only [FinalizerCall.on, Finalizer.markAttachedPod] at hcall
      split at hcall
      next hready =>
        obtain ⟨started, hstart, rfl⟩ := Option.map_eq_some_iff.mp hcall
        rw [startFinalizationTimer_eq hstart]
        refine .armed rfl fun _ hnotReady => ?_
        rw [FinalizerCall.StoresTimers, hready] at hnotReady
        cases hnotReady
      next hready =>
        cases hcall
        exact .kept fun _ => Bool.eq_false_iff.mpr hready
  | setRecording name nameSpace =>
      cases hcall
      unfold Finalizer.setRecording
      split
      next hmissing =>
        refine .entered rfl ?_ fun _ => trivial
        rw [storedTimer_of_missing hmissing]
      next state hstate =>
        refine .entered rfl ?_ fun _ => trivial
        rw [storedTimer_of_lookup hstate]
  | markPodNotRecording name nameSpace =>
      cases hcall
      unfold Finalizer.markPodNotRecording
      split
      next => exact .kept fun _ => trivial
      next state hstate =>
        refine .entered rfl ?_ fun _ => trivial
        rw [storedTimer_of_lookup hstate]
  | timerExpired timer =>
      obtain ⟨pod, harmed, rfl⟩ := Option.map_eq_some_iff.mp hcall
      exact .expired rfl harmed

@[simp] theorem Finalizer.arm_timers_self (pod : Pod) :
    (finalizer.arm pod).timers finalizer.nextTimer = some pod :=
  Function.update_self _ _ _

theorem Finalizer.arm_timers_of_lt {pod : Pod} {timer : Nat} (hlt : timer < finalizer.nextTimer) :
    (finalizer.arm pod).timers timer = finalizer.timers timer :=
  Function.update_of_ne (Nat.ne_of_lt hlt) _ _

theorem Finalizer.armed_of_arm {pod armed : Pod} {timer : Nat}
    (harmed : (finalizer.arm pod).timers timer = some armed) :
    finalizer.timers timer = some armed ∨ timer = finalizer.nextTimer ∧ pod = armed := by
  simp only [arm, Function.update_apply] at harmed
  split at harmed
  next htimer => exact .inr ⟨htimer, Option.some.inj harmed⟩
  next => exact .inl harmed

theorem Finalizer.Started.arm (hstarted : finalizer.Started pods) {pod : Pod}
    (hpod : (pod.name, pod.nameSpace) ∈ pods) : (finalizer.arm pod).Started pods := by
  intro timer armed harmed
  rcases armed_of_arm harmed with hbefore | ⟨rfl, rfl⟩
  · obtain ⟨hlt, hknown⟩ := hstarted timer armed hbefore
    exact ⟨Nat.lt_succ_of_lt hlt, hknown⟩
  · exact ⟨Nat.lt_succ_self _, hpod⟩

/-- Timers are started for the pods that the calls are about. -/
theorem FinalizerCall.Effect.started {call : FinalizerCall}
    (heffect : Effect finalizer call next) (hstarted : finalizer.Started pods)
    (hpods : ∀ pod, call.about = some pod → pod ∈ pods) : next.Started pods := by
  cases heffect with
  | kept | entered => exact hstarted
  | stopped =>
      intro timer pod harmed
      rw [stopTimer_nextTimer]
      exact hstarted timer pod (stopTimer_timers.mp harmed).1
  | armed habout => exact hstarted.arm (hpods _ habout)
  | stored hupdate =>
      subst hupdate
      exact Started.arm hstarted (hpods _ rfl)
  | expired => exact fun timer pod harmed => hstarted timer pod (armed_of_expire harmed)

namespace Finalizer

/-! ## What keeps the table right -/

theorem singleTimer_empty : Finalizer.empty.SingleTimer pods where
  single := nofun
  stored := by
    intro name nameSpace _ timer
    simp [storedTimer, empty]

/-- Nothing changes if neither the timers nor the pointers do. -/
theorem SingleTimer.of_same (hsingle : finalizer.SingleTimer pods)
    (htimers : next.timers = finalizer.timers)
    (hstored : ∀ key, next.storedTimer key = finalizer.storedTimer key) :
    next.SingleTimer pods := by
  constructor
  · rw [htimers]
    exact hsingle.single
  · intro name nameSpace hpod timer
    rw [htimers, hstored]
    exact hsingle.stored name nameSpace hpod timer

/-- A stopped timer is neither pending nor stored. -/
theorem SingleTimer.stopTimer (hsingle : finalizer.SingleTimer pods) {name nameSpace : String}
    (hpod : (name, nameSpace) ∈ pods) :
    (finalizer.stopTimer name nameSpace).SingleTimer pods := by
  constructor
  · intro first second pod other hfirst hsecond
    exact hsingle.single first second pod other (stopTimer_armed.mp hfirst).1
      (stopTimer_armed.mp hsecond).1
  · intro podName podNameSpace hother timer
    have hbefore := hsingle.stored podName podNameSpace hother timer
    simp only [stopTimer_armed, storedTimer_stopTimer]
    split
    next hkey =>
      rw [← hkey]
      constructor
      · exact nofun
      · rintro ⟨pod, ⟨harmed, hnot⟩, hsame⟩
        exact absurd (hbefore.mpr ⟨pod, harmed, hsame⟩) hnot
    next hkey =>
      rw [hbefore]
      constructor
      · rintro ⟨pod, harmed, rfl, rfl⟩
        refine ⟨pod, ⟨harmed, ?_⟩, rfl, rfl⟩
        intro hpoints
        obtain ⟨stopped, hstopped, rfl, rfl⟩ := (hsingle.stored _ _ hpod timer).mp hpoints
        obtain rfl := Option.some.inj (harmed.symm.trans hstopped)
        exact hkey rfl
      · rintro ⟨pod, ⟨harmed, _⟩, hsame⟩
        exact ⟨pod, harmed, hsame⟩

/-- A pod without a stored timer has no pending one. -/
theorem SingleTimer.free (hsingle : finalizer.SingleTimer pods) {pod : Pod}
    (hpod : (pod.name, pod.nameSpace) ∈ pods)
    (hnone : finalizer.storedTimer (generateTableKey pod.name pod.nameSpace) = none)
    {timer : Nat} {armed : Pod} (harmed : finalizer.timers timer = some armed) :
    ¬ (pod.name = armed.name ∧ pod.nameSpace = armed.nameSpace) := by
  rintro ⟨hname, hnameSpace⟩
  have hpoints := (hsingle.stored _ _ hpod timer).mpr ⟨armed, harmed, hname.symm, hnameSpace.symm⟩
  rw [hnone] at hpoints
  cases hpoints

/-- A timer is started and stored for a pod that shares its key with no other one. -/
theorem SingleTimer.store (hsingle : finalizer.SingleTimer pods)
    (hstarted : finalizer.Started pods) {pod : Pod} (hpod : (pod.name, pod.nameSpace) ∈ pods)
    (hnone : finalizer.storedTimer (generateTableKey pod.name pod.nameSpace) = none)
    (htimers : next.timers = (finalizer.arm pod).timers)
    (hstored : ∀ key, next.storedTimer key = if key = generateTableKey pod.name pod.nameSpace
      then some finalizer.nextTimer else finalizer.storedTimer key)
    (hkeys : ∀ name nameSpace, (name, nameSpace) ∈ pods →
      generateTableKey name nameSpace = generateTableKey pod.name pod.nameSpace →
      pod.name = name ∧ pod.nameSpace = nameSpace) : next.SingleTimer pods := by
  constructor
  · intro first second armed other hfirst hsecond hname hnameSpace
    rw [htimers] at hfirst hsecond
    rcases armed_of_arm hfirst with hfirst | ⟨rfl, rfl⟩
    · rcases armed_of_arm hsecond with hsecond | ⟨rfl, rfl⟩
      · exact hsingle.single first second armed other hfirst hsecond hname hnameSpace
      · exact absurd ⟨hname.symm, hnameSpace.symm⟩ (hsingle.free hpod hnone hfirst)
    · rcases armed_of_arm hsecond with hsecond | ⟨rfl, _⟩
      · exact absurd ⟨hname, hnameSpace⟩ (hsingle.free hpod hnone hsecond)
      · rfl
  · intro name nameSpace hother timer
    have hbefore := hsingle.stored name nameSpace hother timer
    rw [hstored, htimers]
    -- The key of the pod now holds the new timer; the others hold what they held.
    by_cases hkey : generateTableKey name nameSpace = generateTableKey pod.name pod.nameSpace
    · obtain ⟨rfl, rfl⟩ := hkeys name nameSpace hother hkey
      rw [if_pos rfl, Option.some.injEq]
      constructor
      · rintro rfl
        exact ⟨pod, arm_timers_self pod, rfl, rfl⟩
      · rintro ⟨armed, harmed, hname, hnameSpace⟩
        rcases armed_of_arm harmed with harmed | ⟨htimer, _⟩
        · exact absurd ⟨hname.symm, hnameSpace.symm⟩ (hsingle.free hpod hnone harmed)
        · exact htimer.symm
    · rw [if_neg hkey, hbefore]
      constructor
      · rintro ⟨armed, harmed, hsame⟩
        rw [← arm_timers_of_lt (hstarted timer armed harmed).1] at harmed
        exact ⟨armed, harmed, hsame⟩
      · rintro ⟨armed, harmed, rfl, rfl⟩
        rcases armed_of_arm harmed with harmed | ⟨_, rfl⟩
        · exact ⟨armed, harmed, rfl, rfl⟩
        · exact absurd rfl hkey

/-- The timer that is stored for a pod is the one that is pending for each pod of its key. -/
theorem SingleTimer.keys_of_store (hnext : next.SingleTimer pods) {pod : Pod}
    (htimers : next.timers = (finalizer.arm pod).timers)
    (hstored : next.storedTimer (generateTableKey pod.name pod.nameSpace) =
      some finalizer.nextTimer) {name nameSpace : String} (hother : (name, nameSpace) ∈ pods)
    (hkey : generateTableKey name nameSpace = generateTableKey pod.name pod.nameSpace) :
    pod.name = name ∧ pod.nameSpace = nameSpace := by
  rw [← hkey] at hstored
  obtain ⟨armed, harmed, hsame⟩ := (hnext.stored _ _ hother _).mp hstored
  rw [htimers, arm_timers_self, Option.some.injEq] at harmed
  rwa [harmed]

/-- A timer that is started and not stored. -/
theorem not_singleTimer_arm (hsingle : finalizer.SingleTimer pods)
    (hstarted : finalizer.Started pods) {pod : Pod} (hpod : (pod.name, pod.nameSpace) ∈ pods) :
    ¬ (finalizer.arm pod).SingleTimer pods := by
  intro hnext
  have hpoints : finalizer.storedTimer (generateTableKey pod.name pod.nameSpace) =
      some finalizer.nextTimer :=
    (hnext.stored _ _ hpod _).mpr ⟨pod, arm_timers_self pod, rfl, rfl⟩
  obtain ⟨other, hother, _⟩ := (hsingle.stored _ _ hpod _).mp hpoints
  exact Nat.lt_irrefl _ (hstarted _ other hother).1

/-- The pointer to a timer outlives it. -/
theorem not_singleTimer_of_expired (hsingle : finalizer.SingleTimer pods)
    (hstarted : finalizer.Started pods) {timer : Nat} {pod : Pod}
    (harmed : finalizer.timers timer = some pod) :
    ¬ (finalizer.expire timer).SingleTimer pods := by
  intro hnext
  have hpod := (hstarted timer pod harmed).2
  have hpoints := (hsingle.stored _ _ hpod timer).mpr ⟨pod, harmed, rfl, rfl⟩
  obtain ⟨other, hother, _⟩ := (hnext.stored _ _ hpod timer).mp hpoints
  simp only [expire, Function.update_self] at hother
  cases hother

end Finalizer

/-! ## Calls -/

/-- A call leaves the table right exactly if it stores the timer it starts. -/
theorem FinalizerCall.storesTimers_iff {call : FinalizerCall}
    (hstarted : finalizer.Started pods) (hsingle : finalizer.SingleTimer pods)
    (hpods : ∀ pod, call.about = some pod → pod ∈ pods)
    (hcall : call.on config finalizer = some next) :
    call.StoresTimers pods finalizer ↔ next.SingleTimer pods := by
  cases call.effect hcall with
  | kept hstores => exact iff_of_true (hstores pods) hsingle
  | entered habout htimer hstores =>
      exact iff_of_true (hstores pods) (hsingle.of_same rfl (storedTimer_setState_same htimer))
  | stopped habout hstores =>
      exact iff_of_true (hstores pods) (hsingle.stopTimer (hpods _ habout))
  | armed habout hunstored =>
      exact iff_of_false (hunstored pods)
        (not_singleTimer_arm hsingle hstarted (hpods _ habout))
  | @stored pod state hupdate hstarts htimer =>
      subst hupdate
      have hstored : ∀ key, ((finalizer.arm pod).setState
          (generateTableKey pod.name pod.nameSpace) state).storedTimer key =
            if key = generateTableKey pod.name pod.nameSpace then some finalizer.nextTimer
            else finalizer.storedTimer key := by
        intro key
        rw [storedTimer_setState, htimer]
        rfl
      constructor
      · intro hkeys
        exact hsingle.store hstarted (hpods _ rfl) hstarts.unstored rfl hstored (hkeys hstarts)
      · intro hnext _ name nameSpace hother hkey
        apply hnext.keys_of_store rfl _ hother hkey
        rw [hstored, if_pos rfl]
  | expired hexpired harmed =>
      subst hexpired
      exact iff_of_false id (not_singleTimer_of_expired hsingle hstarted harmed)

/-! ## Runs -/

/-- In every state of a run the table points to the one pending timer of each pod, exactly
if no timer fires, an addition of a ready pod finds no entry, no container is attached to a
ready pod, and no update starts a timer for a pod that shares its key with another one. -/
theorem storesTimers_iff_singleTimer {calls : List FinalizerCall} {last : Finalizer}
    (hpods : ∀ call ∈ calls, ∀ pod, call.about = some pod → pod ∈ pods)
    (hrun : (finalizerMachine config).run .empty calls = some last) :
    (finalizerMachine config).Along
        (fun finalizer call => call.StoresTimers pods finalizer) .empty calls ↔
      ∀ before finalizer, before <+: calls →
        (finalizerMachine config).run .empty before = some finalizer →
        finalizer.SingleTimer pods := by
  have hassumes : (finalizerMachine config).Along
      (fun _ call => ∀ pod, call.about = some pod → pod ∈ pods) .empty calls :=
    (finalizerMachine config).along_of_forall_mem fun _ call hmem => hpods call hmem
  have hempty : Finalizer.empty.Started pods := nofun
  apply (finalizerMachine config).along_iff_forall_prefix_of_along _ _ hassumes hempty
    Finalizer.singleTimer_empty hrun
  · intro finalizer call next hstarted hpods hcall
    exact (call.effect hcall).started hstarted hpods
  · intro finalizer call next hstarted hsingle hpods hcall
    exact call.storesTimers_iff hstarted hsingle hpods hcall

/-- The pod is added and recorded, and its timer started by the update that finds it ready
and stopped by the next one. -/
def updatedPod : List FinalizerCall :=
  [.handlePodAddEvent (watchedPod false), .setRecording "nginx" "default",
    .handlePodUpdateEvent (watchedPod true), .handlePodUpdateEvent (watchedPod false)]

theorem updatedPod_storesTimers :
    ∃ last, (finalizerMachine mainConfig).run .empty updatedPod = some last ∧
      ((finalizerMachine mainConfig).Along
          (fun finalizer call => call.StoresTimers {("nginx", "default")} finalizer) .empty
          updatedPod ↔
        ∀ before finalizer, before <+: updatedPod →
          (finalizerMachine mainConfig).run .empty before = some finalizer →
          finalizer.SingleTimer {("nginx", "default")}) := by
  have hnginx : ∀ call ∈ updatedPod, call.about = some ("nginx", "default") := by decide
  refine ⟨_, rfl, storesTimers_iff_singleTimer ?_ rfl⟩
  intro call hcall pod habout
  exact Option.some.inj (habout.symm.trans (hnginx call hcall))

/-- The timer of the second addition is not stored. -/
theorem readdedPod_timer_unstored :
    ¬ ∀ (config : CollectorManagerConfig) (pods : Set (String × String))
      (calls : List FinalizerCall) (finalizer : Finalizer),
      (∀ call ∈ calls, ∀ pod, call.about = some pod → pod ∈ pods) →
      (finalizerMachine config).run .empty calls = some finalizer →
      finalizer.SingleTimer pods := by
  intro hclaim
  have hnginx : ∀ call ∈ readdedPod, call.about = some ("nginx", "default") := by decide
  have hsingle := hclaim mainConfig {("nginx", "default")} readdedPod _ ?_ rfl
  · have hpoints := (hsingle.stored "nginx" "default" rfl 0).mpr ⟨watchedPod true, rfl, rfl, rfl⟩
    cases hpoints
  · intro call hcall pod habout
    exact Option.some.inj (habout.symm.trans (hnginx call hcall))

end Kapprofiler.Collector
